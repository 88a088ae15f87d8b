-- Sessions: a world that a host makes requests of, one after the other. What one request leaves
-- behind is there for the next.
import Scriptling.Evaluation

namespace Scriptling

/-- How far a session goes before it gives up. -/
structure Limits where
  /-- How deeply the execution of a program may nest. Its text may nest five levels less. -/
  depth : Nat
  /-- How often one loop may repeat. -/
  patience : Nat

/-- Loops are bounded only in theory. -/
def Limits.standard : Limits := ⟨walkLimit, 1000000000000000000⟩

/-- How a request ends. Errors of a program are reported and do not show here. -/
inductive Ending
  | finished
  | fault (f : Fault)
  | outOfPatience
  deriving DecidableEq, Repr

/-- A runtime error is reported before a request ends. -/
def Ending.ofStop : Stop → Ending
  | .failed _ => .finished
  | .overflow => .fault .overflow
  | .fault f => .fault f
  | .outOfPatience => .outOfPatience

namespace World

/-- A session with the given natives, in order. -/
def create (natives : List Native) (time : Float) : World := natives.foldl install (start time)

/-- Make a request. -/
def request (w : World) (r : Eval Unit) : Ending × World :=
  match r w with
  | .ok _ w => (.finished, w)
  | .error stop w => (.ofStop stop, w)

/-- Run a source. -/
def run (limits : Limits) (w : World) (source : String) : Ending × World :=
  w.request (Eval.run limits.depth
    (Eval.statement limits.patience limits.depth globalChain) (.text source))

/-- Execute statements as they are, without resolving them. -/
def interpret (limits : Limits) (w : World) (statements : List RawStmt) : Ending × World :=
  w.request do
    Eval.program (Eval.statement limits.patience limits.depth globalChain)
      (← Eval.label statements)

/-- Resolve statements and, if asked to and if no error is found, execute them. -/
def resolve (limits : Limits) (w : World) (statements : List RawStmt) (execute : Bool) :
    Ending × World :=
  w.request do
    modify fun w => { w with hadError := false }
    let statements ← Eval.label statements
    Eval.resolve limits.depth statements
    if execute && !(← get).hadError then
      Eval.program (Eval.statement limits.patience limits.depth globalChain) statements

/-- What a global stands for. -/
def global? (w : World) (name : String) : Option Value := w.heap.get? globalChain name

/-- What comes of calling a global from outside. -/
inductive Called
  | returned (value : Value)
  | failed (failure : Failure)
  | ended (ending : Ending)

/-- Call a global without counting its arguments. The result tells its arity too, where it can
be called. -/
def call (limits : Limits) (w : World) (name : String) (arguments : List Value) :
    Option Nat × Called × World :=
  match w.global? name with
  | none => (none, .ended (.fault (.unknownGlobal name)), w)
  | some f =>
    match f.callable? with
    | none => (none, .ended (.fault .notCallable), w)
    | some c =>
      let (called, w) := match Eval.invoke limits.patience limits.depth f arguments w with
        | .ok v w => (Called.returned v, w)
        | .error (.failed e) w => (.failed e.failure, w)
        | .error stop w => (.ended (.ofStop stop), w)
      (some c.arity, called, w)

end World

end Scriptling
