-- Launching: from a command line to an exit code. One script is run, or a shell that runs each
-- line it is given; either starts with the prelude.
import Scriptling.CommandLine
import Scriptling.Prelude
import Scriptling.Session

namespace Scriptling

/-! ## Outcomes -/

/-- How a launch ends. -/
inductive Exit
  | code (n : Nat)
  | unreadable (failure : ReadFailure)
  | fault (f : Fault)
  | outOfPatience
  deriving DecidableEq, Repr

/-- Bad arguments. -/
def Exit.badArguments : Exit := .code 2

/-- Too many scripts. -/
def Exit.usage : Exit := .code 64

/-- A static error in the script. -/
def Exit.dataError : Exit := .code 65

/-- A runtime error. -/
def Exit.software : Exit := .code 70

structure Outcome where
  exit : Exit
  stdout : String
  stderr : String
  deriving DecidableEq, Repr

/-- An ending that is not one of a program's own. -/
def Ending.exit? : Ending → Option Exit
  | .finished => none
  | .fault f => some (.fault f)
  | .outOfPatience => some .outOfPatience

/-- What a launch starts from. -/
structure Setting where
  limits : Limits
  arguments : List String
  vars : Variables
  files : Files
  /-- All of standard input. -/
  input : String
  /-- The time at the start. -/
  time : Float
  /-- Reports are written to a terminal. -/
  terminal : Bool := false
  /-- How the head of a report is painted. -/
  paint : String → String := vars.paint false

/-- What the reports of a launch are written on. -/
def Setting.console (s : Setting) : Console := .create s.vars none s.terminal s.paint

/-- The lines printed in a world after the first `n`. -/
def World.printedSince (w : World) (n : Nat) : String :=
  String.join ((w.printed.toList.drop n).map (· ++ "\n"))

/-- What is reported in a world after the first `n` reports. -/
def World.reportedSince (w : World) (c : Console) (n : Nat) : String :=
  String.join ((w.reports.toList.drop n).map fun r => c.write r.notice)

/-! ## The prelude -/

/-- Run sources in turn. One that cannot be read ends the launch. -/
def loadAll (limits : Limits) (w : World) : List (Except ReadFailure String) → World × Option Exit
  | [] => (w, none)
  | .error f :: _ => (w, some (.unreadable f))
  | .ok source :: rest =>
    match w.run limits source with
    | (.finished, w) => loadAll limits w rest
    | (ending, w) => (w, ending.exit?)

/-- A session with the standard natives, after its prelude. -/
def Setting.session (s : Setting) : World × Option Exit :=
  loadAll s.limits (World.create Native.standard s.time)
    (Prelude.sources s.files (Prelude.root s.vars s.files))

/-! ## Scripts -/

/-- The exit code after a script was run. A runtime error in the prelude counts. -/
def World.exit (w : World) : Exit :=
  if w.hadError then .dataError else if w.hadRuntimeError then .software else .code 0

def runScript (limits : Limits) (files : Files) (w : World) (path : Path) : World × Exit :=
  match files.readText path with
  | .error f => (w, .unreadable f)
  | .ok source =>
    let (ending, w) := w.run limits source
    (w, ending.exit?.getD w.exit)

/-! ## The shell -/

namespace Shell

def intro : String := "ITL interpreter\nType ITL statements, or Ctrl-D to exit.\n"

def prompt : String := "> "

def hint : String := "Statements end with ';'. Try: var a = 1; print a + 2;\n"

/-- What one line leads to. -/
structure Turn where
  written : String
  world : World
  /-- The shell ends here. -/
  exit? : Option Exit

/-- Leave the shell. -/
def leave (w : World) : Turn := ⟨"\n", w, some (.code 0)⟩

/-- Three words are for the shell; any other line is a source of its own. -/
def turn (limits : Limits) (w : World) (line : String) : Turn :=
  let word := Text.strip line
  if word = "" then ⟨"", w, none⟩
  else if word = "EOF" then leave w
  else if word = "help" ∨ word = "?" then ⟨hint, w, none⟩
  else
    let (ending, after) := w.run limits line
    ⟨after.printedSince w.printed.size, after, ending.exit?⟩

/-- The lines of an input. A line end after the last line starts no other line. -/
def lines (input : String) : List String :=
  let all := input.splitOn "\n"
  if all.getLast? = some "" then all.dropLast else all

/-- Take lines in turn. The end of the input leaves the shell. What is written comes with the world
and the exit. -/
def turns (limits : Limits) (w : World) : List String → String × World × Exit
  | [] => (prompt ++ (leave w).written, w, .code 0)
  | line :: rest =>
    let t := turn limits w line
    match t.exit? with
    | some exit => (prompt ++ t.written, t.world, exit)
    | none =>
      let (written, w, exit) := turns limits t.world rest
      (prompt ++ t.written ++ written, w, exit)

end Shell

/-! ## Launching -/

/-- Run what the arguments ask for, once they are known to be right. -/
def Setting.start (s : Setting) (script? : Option String) : Outcome :=
  match s.session with
  | (w, some exit) => ⟨exit, w.printedSince 0, w.reportedSince s.console 0⟩
  | (w, none) =>
    match script? with
    | some script =>
      let (w, exit) := runScript s.limits s.files w (.ofText script)
      ⟨exit, w.printedSince 0, w.reportedSince s.console 0⟩
    | none =>
      let (written, after, exit) := Shell.turns s.limits w (Shell.lines s.input)
      ⟨exit, w.printedSince 0 ++ Shell.intro ++ written, after.reportedSince s.console 0⟩

/-- From a command line to its outcome. Nothing is loaded before the arguments are right. -/
def Setting.launch (s : Setting) : Outcome :=
  match CommandLine.read s.arguments with
  | .help => ⟨.code 0, CommandLine.helpText, ""⟩
  | .helpWith value => ⟨.badArguments, "", CommandLine.helpWithText value⟩
  | .unrecognized arguments => ⟨.badArguments, "", CommandLine.unrecognizedText arguments⟩
  | .run [] => s.start none
  | .run [script] => s.start (some script)
  | .run _ => ⟨.usage, "", CommandLine.tooManyText⟩

end Scriptling
