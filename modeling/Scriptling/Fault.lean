-- Faults: failures of the host, not of a program. A source that was read, resolved and run as a
-- whole never meets one; trees and calls made by hand can.
import Scriptling.Text.Quoted

namespace Scriptling

inductive Fault
  /-- The frame at a recorded distance does not bind the name. -/
  | unboundLocal (name : String)
  /-- A distance leads past the outermost frame. -/
  | noSuchFrame
  /-- The host asked for a global that is not there. -/
  | unknownGlobal (name : String)
  /-- The host called a value that cannot be called. -/
  | notCallable
  /-- The host ran a value that is not a text, but of another kind. -/
  | notSource (kind : String)
  /-- A native was called with fewer arguments than it reads. -/
  | missingArgument
  /-- The host called a function that nests too deeply by itself, outside all calls of a program. -/
  | overflow
  /-- A tree holds something that is no expression. -/
  | alienExpression (text : String)
  /-- A tree holds something that is no statement. -/
  | alienStatement (text : String)
  deriving DecidableEq, Repr

/-- The message of a fault, empty for those that have none. -/
def Fault.message : Fault → String
  | notSource kind => "object of type '" ++ kind ++ "' has no len()"
  | alienExpression text => "Unknown expression node: " ++ Text.quoted text
  | alienStatement text => "Unknown statement node: " ++ Text.quoted text
  | _ => ""

end Scriptling
