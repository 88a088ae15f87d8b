-- The console: how reports are written for a reader at a terminal.
import Scriptling.Report
import Scriptling.Text.Blank

namespace Scriptling

/-- The variables of the process. -/
abbrev Variables := List (String × String)

namespace Variables

def has (vs : Variables) (name : String) : Bool := (vs.lookup name).isSome

/-- Colour is asked for by a setting other than `0`, or, without a setting, by a terminal to write
reports to. -/
def wantColor (vs : Variables) (terminal : Bool) : Bool :=
  match vs.lookup "ITL_COLOR" with
  | some raw => Text.strip raw != "0"
  | none => terminal

/-- Bold red, unless the variables forbid to paint, or do not force it where the output goes to no
terminal: the way to paint that the program runs with. -/
def paint (vs : Variables) (terminal : Bool) (text : String) : String :=
  if !vs.has "ANSI_COLORS_DISABLED" && !vs.has "NO_COLOR" &&
      (vs.has "FORCE_COLOR" || (terminal && vs.lookup "TERM" != some "dumb")) then
    "\x1b[1m\x1b[31m" ++ text ++ "\x1b[0m"
  else text

end Variables

/-- What reports are written on. How the head of a report is painted is not for this language to
say. -/
structure Console where
  color : Bool
  paint : String → String

namespace Console

/-- A console with a given colour setting, or else with the one of the process. -/
def create (vs : Variables) (color : Option Bool) (terminal : Bool := false)
    (paint : String → String := vs.paint false) : Console :=
  ⟨color.getD (vs.wantColor terminal), paint⟩

/-- The head of a report. -/
def head (c : Console) (text : String) : String := if c.color then c.paint text else text

def write (c : Console) : Notice → String
  | .static line place message => c.head (Notice.head line place) ++ " " ++ message ++ "\n"
  | .runtime line message => c.head message ++ "\n" ++ "[line " ++ toString line ++ "]\n"

end Console

/-- What has been reported, as far as an exit code depends on it. -/
structure Flags where
  hadError : Bool
  hadRuntimeError : Bool
  deriving DecidableEq, Repr

namespace Flags

def clear : Flags := ⟨false, false⟩

def note (f : Flags) : Notice → Flags
  | .static .. => { f with hadError := true }
  | .runtime .. => { f with hadRuntimeError := true }

/-- A new run forgets the static errors of the one before, and no runtime error. -/
def reset (f : Flags) : Flags := { f with hadError := false }

end Flags

end Scriptling
