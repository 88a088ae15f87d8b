-- Resolution: before a program runs, each use of a local variable is given its distance, the
-- number of scopes between the use and the declaration. Uses without a distance are global.
-- What breaks the rules of scope is reported on the way, and does not stop the walk.
import Scriptling.Fault
import Scriptling.Scope
import Scriptling.Tree
import Std.Data.TreeMap

namespace Scriptling

/-- The recorded distances, by use. -/
abbrev Distances := Std.TreeMap UseId Nat

/-- What a walk over a program finds. -/
structure Findings where
  distances : Distances
  errors : Array StaticError

/-- Why a walk ends early. -/
inductive Halt
  | tooDeep
  | fault (f : Fault)
  deriving DecidableEq, Repr

abbrev Resolve := EStateM Halt Findings

namespace Resolve

def report (e : StaticError) : Resolve Unit :=
  modify fun f => { f with errors := f.errors.push e }

/-- Record the distance of a use, if some scope declares its name. -/
def record (scopes : Scopes) (name : Token) (use : UseId) : Resolve Unit :=
  match scopes.distance? name.lexeme with
  | some d => modify fun f => { f with distances := f.distances.insert use d }
  | none => pure ()

/-- Declare a name whose value is not ready. Declaring it twice in one scope is an error. -/
def declare (scopes : Scopes) (name : Token) : Resolve Scopes := do
  if scopes.declared name.lexeme then report (.atToken name .alreadyDeclared)
  return scopes.note name.lexeme false

/-- Declare a name whose value is ready at once. -/
def declareReady (scopes : Scopes) (name : Token) : Resolve Scopes := do
  let scopes ← declare scopes name
  return scopes.note name.lexeme true

/-- Walk over an expression inside `scopes`, at most `depth` levels deep. -/
def expression (scopes : Scopes) : Nat → Expr UseId → Resolve Unit
  | 0, _ => throw .tooDeep
  | depth + 1, e =>
    match e with
    | .literal _ => pure ()
    | .grouping inner => expression scopes depth inner
    | .unary _ right => expression scopes depth right
    | .binary left _ right | .logical left _ right => do
      expression scopes depth left
      expression scopes depth right
    | .variable name use => do
      if scopes.unfinished name.lexeme then report (.atToken name .ownInitializer)
      record scopes name use
    | .assign name value use => do
      expression scopes depth value
      record scopes name use
    | .call callee _ arguments => do
      expression scopes depth callee
      arguments.forM (expression scopes depth)
    | .alien text => throw (.fault (.alienExpression text))

mutual
/-- Walk over a statement inside `scopes`, and give the scopes for the statement after it.
`inFunction` says whether a function lies around. -/
def statement : Nat → Bool → Scopes → Stmt UseId → Resolve Scopes
  | 0, _, _, _ => throw .tooDeep
  | depth + 1, inFunction, scopes, s =>
    match s with
    | .expression e | .print e => do
      expression scopes depth e
      return scopes
    | .var name initializer => do
      let scopes ← declare scopes name
      initializer.forM (expression scopes depth)
      return scopes.note name.lexeme true
    | .block body => do
      statements depth inFunction (.empty :: scopes) body
      return scopes
    | .branch condition yes no => do
      expression scopes depth condition
      let scopes ← statement depth inFunction scopes yes
      match no with
      | some no => statement depth inFunction scopes no
      | none => return scopes
    | .loop condition body => do
      expression scopes depth condition
      statement depth inFunction scopes body
    | .function name parameters body => do
      let scopes ← declareReady scopes name
      function depth scopes parameters body
      return scopes
    | .giveBack keyword value => do
      if !inFunction then report (.atToken keyword .topLevelReturn)
      value.forM (expression scopes depth)
      return scopes
    | .alien text => throw (.fault (.alienStatement text))

/-- Walk over statements in turn. The walk from a block to its statements is one level. -/
def statements : Nat → Bool → Scopes → List (Stmt UseId) → Resolve Unit
  | 0, _, _, _ => throw .tooDeep
  | depth + 1, inFunction, scopes, body => do
    let _ ← body.foldlM (statement depth inFunction) scopes

/-- Walk over a function, whose parameters and body share a scope. -/
def function : Nat → Scopes → List Token → List (Stmt UseId) → Resolve Unit
  | 0, _, _, _ => throw .tooDeep
  | depth + 1, scopes, parameters, body => do
    let inner ← parameters.foldlM declareReady (.empty :: scopes)
    statements depth true inner body
end

/-- Walk over a top-level statement. One that nests too deeply is reported at its first line,
and the walk goes on outside all scopes. -/
def topLevel (depth : Nat) (scopes : Scopes) (s : Stmt UseId) : Resolve Scopes :=
  tryCatch (statement depth false scopes s) fun
    | .tooDeep => do
      report ⟨s.firstLine, .nowhere, .tooDeep⟩
      return []
    | .fault f => throw (.fault f)

/-- Walk over a program. -/
def program (depth : Nat) (statements : List (Stmt UseId)) : Resolve Unit := do
  let _ ← statements.foldlM (topLevel depth) []

end Resolve

/-- Resolve a program against the distances recorded before. A fault ends the walk, and what was
found up to then is kept. -/
def resolve (depth : Nat) (distances : Distances) (statements : List (Stmt UseId)) :
    Findings × Option Fault :=
  match Resolve.program depth statements ⟨distances, #[]⟩ with
  | .ok _ found => (found, none)
  | .error (.fault f) found => (found, some f)
  | .error .tooDeep found => (found, none)

end Scriptling
