-- Commands on a chain of frames, one at a time.
import Scriptling.Frame

namespace Scriptling

/-- A heap seen from one chain. -/
structure Environment where
  heap : Heap
  chain : Chain

namespace Environment

/-- Only the globals, and none bound. -/
def start : Environment := ⟨.start, globalChain⟩

inductive Command
  | define (name : String) (value : Value)
  | get (name : Token)
  | assign (name : Token) (value : Value)
  | getAt (distance : Nat) (name : String)
  | assignAt (distance : Nat) (name : String) (value : Value)
  /-- Show the chain from a frame further out. -/
  | ancestor (distance : Nat)
  /-- Add a frame inside. -/
  | push
  /-- Leave the innermost frame. The outermost one is never left. -/
  | pop

inductive Answer
  | nothing
  | value (v : Value)
  | text (s : String)
  | failed (e : RuntimeError)
  | fault (f : Fault)

def step (env : Environment) : Command → Answer × Environment
  | .define name v => (.nothing, { env with heap := env.heap.define env.chain name v })
  | .get name =>
    match env.heap.get? env.chain name.lexeme with
    | some v => (.value v, env)
    | none => (.failed ⟨name, .undefinedVariable name.lexeme⟩, env)
  | .assign name v =>
    match env.heap.holder? env.chain name.lexeme with
    | some i => (.nothing, { env with heap := env.heap.put i name.lexeme v })
    | none => (.failed ⟨name, .undefinedVariable name.lexeme⟩, env)
  | .getAt distance name =>
    match env.heap.getAt env.chain distance name with
    | .ok v => (.value v, env)
    | .error f => (.fault f, env)
  | .assignAt distance name v =>
    match env.chain[distance]? with
    | some i => (.nothing, { env with heap := env.heap.put i name v })
    | none => (.fault .noSuchFrame, env)
  | .ancestor distance =>
    if distance < env.chain.length then (.text (env.heap.chainHead (env.chain.drop distance)), env)
    else if distance = env.chain.length then (.nothing, env)
    else (.fault .noSuchFrame, env)
  | .push => (.nothing, ⟨env.heap.grow, env.heap.next :: env.chain⟩)
  | .pop =>
    match env.chain with
    | _ :: i :: outer => (.nothing, { env with chain := i :: outer })
    | _ => (.nothing, env)

/-- The innermost frame as text. -/
def text (env : Environment) : String := env.heap.chainHead env.chain

/-- The whole chain as text. -/
def chainText (env : Environment) : String := env.heap.chainText env.chain

end Environment

end Scriptling
