-- The program: reads the process's surroundings, launches, and writes what came of it.
import Scriptling.Launch
import Std.Time.DateTime.Timestamp

namespace Scriptling.Main

/-- The time in seconds since the epoch. -/
def now : IO Float := do
  let t ← Std.Time.Timestamp.now
  return Float.ofInt t.toNanosecondsSinceUnixEpoch.val / 1000000000

/-- The variables that matter here. -/
def readVars : IO Variables := do
  let names :=
    ["ITL_PRELUDE_PATH", "ITL_COLOR", "ANSI_COLORS_DISABLED", "NO_COLOR", "FORCE_COLOR", "TERM",
      "HOME"]
  names.filterMapM fun name => return (← IO.getEnv name).map fun value => (name, value)

/-- The location that the first parts of a path lead to. -/
def follow (start : Location) (parts : List String) : Location :=
  parts.foldl (fun l part => if part = ".." then l.dropLast else l ++ [part]) start

/-- Add what stands at a path, and the files in it if it is a directory. -/
def look (fs : Files) (p : Path) : IO Files := do
  let location := follow (if p.isAbsolute then [] else fs.current) p.parts
  match ← (IO.FS.realPath p.text).toBaseIO with
  | .error _ => return fs
  | .ok real =>
    if ← real.isDir then
      let mut found := fs.add location .directory
      for entry in ← real.readDir do
        if !(← entry.path.isDir) then
          found := found.add (location ++ [entry.fileName]) (.file (← IO.FS.readBinFile entry.path))
      return found
    else return fs.add location (.file (← IO.FS.readBinFile real))

/-- Every path on the way to a path, the path included. -/
def wayTo (p : Path) : List Path :=
  (List.range (p.parts.length + 1)).map fun n => { p with parts := p.parts.take n }

/-- The part of the file system that a launch can ask for. -/
def snapshot (vs : Variables) (arguments : List String) : IO Files := do
  let here := (Path.ofText (← IO.currentDir).toString).parts
  let scripts := match CommandLine.read arguments with
    | .run scripts => scripts.map Path.ofText
    | _ => []
  let mut fs := Files.start here
  for p in scripts ++ (Prelude.requested? vs).toList do
    for q in wayTo p ++ [p.parent] do
      fs ← look fs q
  return fs

/-- Write an outcome, and give the exit code of the process. -/
def finish (o : Outcome) : IO UInt32 := do
  IO.print o.stdout
  IO.eprint o.stderr
  match o.exit with
  | .code n => return n.toUInt32
  | .unreadable f => IO.eprintln f.message
  | .fault f => IO.eprintln f.message
  | .outOfPatience => pure ()
  return 1

/-- Take lines from standard input, one at a time. -/
def shell (s : Setting) (w : World) : IO UInt32 := do
  let input ← IO.getStdin
  IO.print (w.printedSince 0 ++ Shell.intro)
  IO.eprint (w.reportedSince s.console 0)
  let mut w := w
  repeat
    IO.print Shell.prompt
    (← IO.getStdout).flush
    let line ← input.getLine
    let t := if line.isEmpty then Shell.leave w
      else Shell.turn s.limits w ((Shell.lines line).headD "")
    IO.eprint (t.world.reportedSince s.console w.reports.size)
    match t.exit? with
    | some exit => return ← finish ⟨exit, t.written, ""⟩
    | none =>
      IO.print t.written
      w := t.world
  return 0

end Scriptling.Main

open Scriptling in
def main (arguments : List String) : IO UInt32 := do
  let vs ← Main.readVars
  let setting : Setting := {
    limits := .standard
    arguments := arguments
    vars := vs
    files := ← Main.snapshot vs arguments
    input := ""
    time := ← Main.now
    terminal := ← (← IO.getStderr).isTty
    paint := vs.paint (← (← IO.getStdout).isTty) }
  match CommandLine.read arguments with
  | .run [] =>
    match setting.session with
    | (w, none) => Main.shell setting w
    | _ => Main.finish setting.launch
  | _ => Main.finish setting.launch
