-- The state of a running session, and the steps that change it.
import Scriptling.Frame
import Scriptling.Host
import Scriptling.Scope.Resolution

namespace Scriptling

/-! ## The state -/

/-- What a callable does. -/
inductive Code
  /-- A function of the program, with the chain it was declared in. -/
  | closure (parameters : List Token) (body : List (Stmt UseId)) (chain : Chain)
  /-- A function of the host. -/
  | host (act : List Value → Action)

structure World where
  heap : Heap
  /-- What each callable does, by its `id`. -/
  code : Array Code
  /-- The distances recorded by all runs so far. -/
  distances : Distances
  /-- The next label for a use of a variable. -/
  nextUse : UseId
  /-- The lines printed so far. -/
  printed : Array String
  /-- All that was reported so far, in order. -/
  reports : Array Report
  /-- A static error was reported in the latest run. -/
  hadError : Bool
  /-- The next reading of the clock. -/
  clock : Float

/-- Why evaluation stops early. -/
inductive Stop
  /-- The program failed. -/
  | failed (error : RuntimeError)
  /-- The program nests too deeply, in its text or in its calls. -/
  | overflow
  /-- The host failed. -/
  | fault (f : Fault)
  /-- A loop was repeated as often as the host allows. -/
  | outOfPatience

abbrev Eval := EStateM Stop World

namespace World

/-- A session in which nothing has happened, at a given time. -/
def start (time : Float) : World where
  heap := .start
  code := #[]
  distances := ∅
  nextUse := 0
  printed := #[]
  reports := #[]
  hadError := false
  clock := time

/-- How much later each reading of the clock is than the one before. -/
def tick : Float := 0.000001

def staticErrors (w : World) : List StaticError := w.reports.toList.filterMap Report.static?

def runtimeErrors (w : World) : List RuntimeError := w.reports.toList.filterMap Report.runtime?

/-- A runtime error was reported at some time. -/
def hadRuntimeError (w : World) : Bool := w.reports.any (·.runtime?.isSome)

/-- The globals as text. -/
def globals (w : World) : String := w.heap.chainHead globalChain

/-! ## Callables -/

/-- Make a function that is not bound to a name yet. -/
def addFunction (w : World) (name : String) (parameters : List Token) (body : List (Stmt UseId))
    (chain : Chain) : Value × World :=
  (.function ⟨w.code.size, name, parameters.length⟩,
    { w with code := w.code.push (.closure parameters body chain) })

/-- Make a native that is not bound to a name yet. -/
def addNative (w : World) (n : Native) : Value × World :=
  (.native ⟨w.code.size, n.name, n.arity⟩, { w with code := w.code.push (.host n.act) })

/-- Bind a native to a global of its name. -/
def install (w : World) (n : Native) : World :=
  let (v, w) := w.addNative n
  { w with heap := w.heap.define globalChain n.name v }

end World

namespace Eval

/-! ## Depth -/

/-- Fail with a stack overflow where fewer than `n` levels are left. -/
def room (depth n : Nat) : Eval Unit := if n ≤ depth then pure () else throw .overflow

/-! The levels that a single step takes while it lasts. -/

namespace Levels

/-- To look a global up. -/
def globalName : Nat := 1

/-- To go out to the frame of a local variable. -/
def localName : Nat := 3

/-- To check operands and to apply an operator to them. -/
def operator : Nat := 4

end Levels

/-! ## Single steps -/

def ofOperator (result : Except RuntimeError Value) : Eval Value :=
  match result with
  | .ok v => pure v
  | .error e => throw (.failed e)

def print (line : String) : Eval Unit := modify fun w => { w with printed := w.printed.push line }

def reportStatic (e : StaticError) : Eval Unit := modify fun w =>
  { w with reports := w.reports.push (.static e), hadError := true }

def reportRuntime (e : RuntimeError) : Eval Unit := modify fun w =>
  { w with reports := w.reports.push (.runtime e) }

def readClock : Eval Float := modifyGet fun w => (w.clock, { w with clock := w.clock + World.tick })

/-- Add a frame inside a chain. -/
def openFrame (chain : Chain) : Eval Chain := modifyGet fun w =>
  (w.heap.next :: chain, { w with heap := w.heap.grow })

def define (chain : Chain) (name : String) (value : Value) : Eval Unit :=
  modify fun w => { w with heap := w.heap.define chain name value }

/-- Bind parameters to arguments. Surplus ones of either are left out. -/
def defineAll (chain : Chain) : List Token → List Value → Eval Unit
  | p :: ps, v :: vs => do
    define chain p.lexeme v
    defineAll chain ps vs
  | _, _ => pure ()

/-- The distance recorded for a use. -/
def distance? (use : UseId) : Eval (Option Nat) := return (← get).distances[use]?

def readGlobal (name : Token) : Eval Value := do
  match (← get).heap.get? globalChain name.lexeme with
  | some v => return v
  | none => throw (.failed ⟨name, .undefinedVariable name.lexeme⟩)

/-- Change a global. A name that is not bound is not declared by this. -/
def assignGlobal (name : Token) (value : Value) : Eval Unit := do
  match (← get).heap.holder? globalChain name.lexeme with
  | some i => modify fun w => { w with heap := w.heap.put i name.lexeme value }
  | none => throw (.failed ⟨name, .undefinedVariable name.lexeme⟩)

def readAt (chain : Chain) (distance : Nat) (name : String) : Eval Value := do
  match (← get).heap.getAt chain distance name with
  | .ok v => return v
  | .error f => throw (.fault f)

def assignAt (chain : Chain) (distance : Nat) (name : String) (value : Value) : Eval Unit :=
  match chain[distance]? with
  | some i => modify fun w => { w with heap := w.heap.put i name value }
  | none => throw (.fault .noSuchFrame)

/-- What a value does when it is called, if it can be called. -/
def codeOf? (v : Value) : Eval (Option Code) := do
  match v.callable? with
  | some c => return (← get).code[c.id]?
  | none => return none

/-! ## Sequences and loops -/

/-- Run statements in turn until one returns a value. -/
def sequence (run : Stmt UseId → Eval (Option Value)) : List (Stmt UseId) → Eval (Option Value)
  | [] => return none
  | s :: rest => do
    match ← run s with
    | some v => return some v
    | none => sequence run rest

/-- Repeat `body` while `condition` holds and no value is returned, at most `patience` times. -/
def repeatWhile (condition : Eval Bool) (body : Eval (Option Value)) :
    Nat → Eval (Option Value)
  | 0 => throw .outOfPatience
  | patience + 1 => do
    if ← condition then
      match ← body with
      | some v => return some v
      | none => repeatWhile condition body patience
    else return none

end Eval

/-- Carry out what a native asks for, with the means to call a value and to run a source. -/
def Action.perform (call : Value → List Value → Eval Value) (run : Value → Eval Unit) :
    Action → Eval Value
  | .done v => return v
  | .fail f => throw (.fault f)
  | .readClock next => do (next (← Eval.readClock)).perform call run
  | .call callee arguments next => do (next (← call callee arguments)).perform call run
  | .run source next => do
    run source
    next.perform call run

end Scriptling
