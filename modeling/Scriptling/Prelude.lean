-- The prelude: sources that are run before a program. They come from a directory, or from a small
-- set that is always there.
import Scriptling.Console
import Scriptling.Files

namespace Scriptling.Prelude

/-- The source of the bundled prelude. -/
def core : String :=
  "# Core helpers, loaded before user code.\n" ++
  "\n" ++
  "function abs(x) \x7b\n" ++
  "  if (x < 0) return -x;\n" ++
  "  return x;\n" ++
  "\x7d\n" ++
  "\n" ++
  "function max(a, b) \x7b\n" ++
  "  if (a > b) return a;\n" ++
  "  return b;\n" ++
  "\x7d\n" ++
  "\n" ++
  "function min(a, b) \x7b\n" ++
  "  if (a < b) return a;\n" ++
  "  return b;\n" ++
  "\x7d\n"

/-- The bundled sources by file name. -/
def bundled : List (String × String) := [("core.itl", core)]

/-- Where the prelude comes from. -/
inductive Root
  | bundle
  | directory (path : Path)
  deriving DecidableEq, Repr

/-- The path that the process asks for, if it asks for one. -/
def requested? (vs : Variables) : Option Path :=
  let raw := Text.strip ((vs.lookup "ITL_PRELUDE_PATH").getD "")
  if raw.isEmpty then none else some ((Path.ofText raw).expandHome (vs.lookup "HOME"))

/-- The root that the process asks for. A file stands for the directory it is in. -/
def root (vs : Variables) (fs : Files) : Root :=
  match requested? vs with
  | none => .bundle
  | some p => .directory (if fs.isFile p then p.parent else p)

/-- The prelude files directly inside a directory, in the order of their names. A directory that
is not there holds none. -/
def filesUnder (fs : Files) (path : Path) : List Path :=
  let names := (fs.filesIn path).filter (·.endsWith ".itl")
  (names.mergeSort fun a b => decide (a ≤ b)).map path.child

def files (fs : Files) : Root → List Path
  | .bundle => bundled.map fun (name, _) => Path.ofText name
  | .directory path => filesUnder fs path

/-- The sources to run, in order, each read when its turn comes. -/
def sources (fs : Files) : Root → List (Except ReadFailure String)
  | .bundle => bundled.map fun (_, source) => .ok source
  | .directory path => (filesUnder fs path).map fs.readText

end Scriptling.Prelude
