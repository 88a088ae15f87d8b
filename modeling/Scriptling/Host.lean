-- The host of a program gives it natives: functions that are not written in the language. What a
-- native does is an action, a tree of requests to the running session.
import Scriptling.Fault
import Scriptling.Value

namespace Scriptling

/-- What a native does, one request at a time. -/
inductive Action
  /-- Finish with a value. -/
  | done (value : Value)
  /-- Fail as a part of the host. -/
  | fail (f : Fault)
  /-- Read the clock. -/
  | readClock (next : Float → Action)
  /-- Call a value with arguments. The number of arguments is not checked. -/
  | call (callee : Value) (arguments : List Value) (next : Value → Action)
  /-- Run a text as a source of its own, in the same session. -/
  | run (source : Value) (next : Action)

structure Native where
  name : String
  arity : Nat
  act : List Value → Action

namespace Native

/-- The time in seconds since the epoch. -/
def clock : Native := ⟨"clock", 0, fun _ => .readClock fun t => .done (.number t)⟩

/-- The natives that a session has unless it is given others. -/
def standard : List Native := [clock]

/-- What an editor says about each standard native. -/
def signatures : List (String × String) :=
  [("clock", "clock() -> number of seconds since the epoch")]

end Native

end Scriptling
