-- Evaluation. Expressions give values, statements run for their effect and may return a value
-- early. Each step inward takes one level or more from a budget of depth, and a program that
-- uses it up fails with a stack overflow; each loop may repeat a bounded number of times.
import Scriptling.Grammar.Program
import Scriptling.Tree.Label
import Scriptling.World

namespace Scriptling

namespace Eval

/-! ## A program over a way to execute statements -/

/-- Execute top-level statements in turn. A runtime error ends the program and is reported; a
stack overflow outside all calls is one at the first line of its statement. A value returned at
the top level is dropped. -/
def program (execute : Stmt UseId → Eval (Option Value)) (statements : List (Stmt UseId)) :
    Eval Unit :=
  tryCatch
    (statements.forM fun s =>
      tryCatch (do let _ ← execute s) fun
        | .overflow => throw (.failed ⟨.endAt s.firstLine, .stackOverflow⟩)
        | stop => throw stop)
    fun
      | .failed e => reportRuntime e
      | stop => throw stop

/-- Give every use in a program a label not used before. -/
def label (statements : List RawStmt) : Eval (List (Stmt UseId)) := modifyGet fun w =>
  let (labelled, next) := (Stmt.labelAll statements).run w.nextUse
  (labelled, { w with nextUse := next })

/-- Record the distances of a program and report its errors of scope. -/
def resolve (depth : Nat) (statements : List (Stmt UseId)) : Eval Unit := do
  let (found, fault?) := Scriptling.resolve depth (← get).distances statements
  modify fun w => { w with distances := found.distances }
  found.errors.toList.forM reportStatic
  match fault? with
  | some f => throw (.fault f)
  | none => return ()

/-- Read, resolve and execute a source. A static error keeps all of it from running. Reading
starts with five levels less than execution, and where there are not as many it overflows. -/
def source (depth : Nat) (execute : Stmt UseId → Eval (Option Value)) (text : String) :
    Eval Unit := do
  room depth 5
  let reading := read (depth - 5) text
  reading.errors.forM reportStatic
  let statements ← label reading.statements
  if (← get).hadError then return
  resolve depth statements
  if (← get).hadError then return
  program execute statements

/-- Run a value as a source of its own. -/
def run (depth : Nat) (execute : Stmt UseId → Eval (Option Value)) (v : Value) : Eval Unit := do
  modify fun w => { w with hadError := false }
  match v with
  | .text s => source depth execute s
  | _ => throw (.fault (.notSource v.hostKind))

/-! ## Expressions, statements and calls -/

mutual
/-- The value of an expression in code that sees `chain`. -/
def expression (patience : Nat) : Nat → Chain → Expr UseId → Eval Value
  | 0, _, _ => throw .overflow
  | depth + 1, chain, e =>
    match e with
    | .literal v => return v
    | .grouping inner => expression patience depth chain inner
    | .unary operator right => do
      let a ← expression patience depth chain right
      room depth Levels.operator
      ofOperator (Value.unary operator a)
    | .binary left operator right => do
      let a ← expression patience depth chain left
      let b ← expression patience depth chain right
      room depth Levels.operator
      ofOperator (Value.binary operator a b)
    | .logical left operator right => do
      let a ← expression patience depth chain left
      if (operator.kind == .keyword .orWord) == a.isTruthy then return a
      else expression patience depth chain right
    | .variable name use => do
      match ← distance? use with
      | some d =>
        room depth Levels.localName
        readAt chain d name.lexeme
      | none =>
        room depth Levels.globalName
        readGlobal name
    | .assign name value use => do
      let v ← expression patience depth chain value
      match ← distance? use with
      | some d =>
        room depth Levels.localName
        assignAt chain d name.lexeme v
      | none =>
        room depth Levels.globalName
        assignGlobal name v
      return v
    | .call callee paren arguments => do
      let f ← expression patience depth chain callee
      let vs ← values patience depth chain arguments
      apply patience depth f vs paren
    | .alien text => throw (.fault (.alienExpression text))

/-- The values of expressions, from left to right. -/
def values (patience : Nat) : Nat → Chain → List (Expr UseId) → Eval (List Value)
  | 0, _, _ => throw .overflow
  | depth + 1, chain, es => es.mapM (expression patience depth chain)

/-- Execute a statement in code that sees `chain`. The result is what it returns, if it does. -/
def statement (patience : Nat) : Nat → Chain → Stmt UseId → Eval (Option Value)
  | 0, _, _ => throw .overflow
  | depth + 1, chain, s =>
    match s with
    | .expression e => do
      let _ ← expression patience depth chain e
      return none
    | .print e => do
      let v ← expression patience depth chain e
      print v.display
      return none
    | .var name initializer => do
      let v ← match initializer with
        | some e => expression patience depth chain e
        | none => pure .nil
      define chain name.lexeme v
      return none
    | .block body => do
      let inner ← openFrame chain
      statements patience depth inner body
    | .branch condition yes no => do
      let v ← expression patience depth chain condition
      if v.isTruthy then statement patience depth chain yes
      else match no with
        | some no => statement patience depth chain no
        | none => return none
    | .loop condition body =>
      repeatWhile (do return (← expression patience depth chain condition).isTruthy)
        (statement patience depth chain body) patience
    | .function name parameters body => do
      let f ← modifyGet (·.addFunction name.lexeme parameters body chain)
      define chain name.lexeme f
      return none
    | .giveBack _ value =>
      match value with
      | some e => return some (← expression patience depth chain e)
      | none => return some .nil
    | .alien text => throw (.fault (.alienStatement text))

/-- Execute statements in turn, up to the first that returns a value. -/
def statements (patience : Nat) : Nat → Chain → List (Stmt UseId) → Eval (Option Value)
  | 0, _, _ => throw .overflow
  | depth + 1, chain, body => sequence (statement patience depth chain) body

/-- Call a value from a program. What cannot be called, and a wrong number of arguments, are
errors at the closing parenthesis, and so is a stack overflow inside. Looking at the value before
the call takes six levels for a while, and where there are not as many the overflow is outside. -/
def apply (patience : Nat) : Nat → Value → List Value → Token → Eval Value
  | depth + 7, f, arguments, paren =>
    match f.callable? with
    | none => throw (.failed ⟨paren, .notCallable⟩)
    | some c =>
      if arguments.length ≠ c.arity then
        throw (.failed ⟨paren, .wrongArgumentCount c.arity arguments.length⟩)
      else
        tryCatch (invoke patience (depth + 6) f arguments) fun
          | .overflow => throw (.failed ⟨paren, .stackOverflow⟩)
          | stop => throw stop
  | _, _, _, _ => throw .overflow

/-- Call a value without counting its arguments. The body of a function sees a frame of its own
inside the chain in which the function was declared. A native is two levels inside its call, and
the statements of a source that it runs are two more inside. -/
def invoke (patience : Nat) : Nat → Value → List Value → Eval Value
  | depth + 4, f, arguments => do
    match ← codeOf? f with
    | none => throw (.fault .notCallable)
    | some (.closure parameters body chain) =>
      let inner ← openFrame chain
      defineAll inner parameters arguments
      let result ← statements patience (depth + 2) inner body
      return result.getD .nil
    | some (.host act) =>
      (act arguments).perform (invoke patience (depth + 2))
        (run depth (statement patience depth globalChain))
  | _, _, _ => throw .overflow
end

end Eval

end Scriptling
