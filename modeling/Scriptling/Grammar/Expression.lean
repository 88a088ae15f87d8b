-- Expressions. The binary operators form a ladder of precedence, each rung a chain that groups
-- to the left over the rung below it. Under the ladder stand the unary operators, then calls, then
-- single terms. Nesting is bounded by a budget that shrinks on the way down.
import Scriptling.Grammar.Parser
import Scriptling.Tree

namespace Scriptling

/-- The value of a literal token. -/
def Token.value (t : Token) : Value :=
  match t.literal with
  | some (.number x) => .number x
  | some (.text s) => .text s
  | none => .nil

namespace Parser

/-! ## The ladder of binary operators -/

/-- One level of precedence: its operators, and the node that joins two operands. -/
structure Rung where
  operators : List Kind
  join : RawExpr → Token → RawExpr → RawExpr

/-- The levels from the loosest to the tightest. -/
def rungs : List Rung :=
  [⟨[.keyword .orWord], .logical⟩,
   ⟨[.keyword .andWord], .logical⟩,
   ⟨[.bangEqual, .equalEqual], .binary⟩,
   ⟨[.greater, .greaterEqual, .less, .lessEqual], .binary⟩,
   ⟨[.minus, .plus], .binary⟩,
   ⟨[.slash, .star], .binary⟩]

/-- Operands with operators of one rung between them, grouped to the left. -/
def chain (size : Nat) (rung : Rung) (operand : Parser RawExpr) : Parser RawExpr := do
  let first ← operand
  iterate (fun left => do
    match ← acceptIf rung.operators.contains with
    | none => return none
    | some operator => return some (rung.join left operator (← operand))) size first

/-- Chains of chains, over the given operand. -/
def ladder (size : Nat) (operand : Parser RawExpr) : Parser RawExpr :=
  rungs.foldr (chain size) operand

/-! ## Terms and calls -/

/-- The rest of an expression in parentheses, after the opening one. -/
def grouping (nested : Parser RawExpr) : Parser RawExpr := do
  let inner ← nested
  let _ ← expect .rightParen .parenAfterExpression
  return .grouping inner

/-- A literal, a name, or an expression in parentheses. -/
def primary (nested : Parser RawExpr) : Parser RawExpr
  | [] => refuse .expression []
  | t :: rest =>
    match t.kind with
    | .keyword .falseWord => Parser.pure (.literal (.bool false)) rest
    | .keyword .trueWord => Parser.pure (.literal (.bool true)) rest
    | .keyword .nilWord => Parser.pure (.literal .nil) rest
    | .number | .string => Parser.pure (.literal t.value) rest
    | .identifier => Parser.pure (.variable t ()) rest
    | .leftParen => grouping nested rest
    | _ => refuse .expression (t :: rest)

/-- The rest of a call, after its opening parenthesis. -/
def finishCall (size : Nat) (nested : Parser RawExpr) (callee : RawExpr) : Parser RawExpr := do
  let arguments ←
    if ← check .rightParen then pure []
    else commaSeparated size nested .tooManyArguments
  let paren ← expect .rightParen .parenAfterArguments
  return .call callee paren arguments

/-- A term, called any number of times. -/
def call (size : Nat) (nested : Parser RawExpr) : Parser RawExpr := do
  let term ← primary nested
  iterate (fun callee => do
    match ← accept .leftParen with
    | none => return none
    | some _ => return some (← finishCall size nested callee)) size term

/-! ## Nesting -/

mutual
/-- An expression. The name to the left of an equals sign is read as an expression first, and
anything but a name is complained about there. The ladder costs twelve of the budget, one
more assignment inside an assignment costs one. -/
def expression (size : Nat) : Nat → Parser RawExpr
  | budget + 12 => do
    let target ← ladder size (unary size budget)
    match ← accept .equal with
    | none => return target
    | some equals =>
      let value ← expression size (budget + 11)
      match target with
      | .variable name _ => return .assign name value ()
      | _ =>
        complainAt equals .assignmentTarget
        return target
  | _ => tooDeep

/-- Unary operators over a call. Each operator costs one of the budget; so does each of the
three steps down to an expression inside a term. -/
def unary (size : Nat) : Nat → Parser RawExpr
  | budget + 3 => do
    match ← acceptIf [Kind.bang, .minus].contains with
    | some operator => return .unary operator (← unary size (budget + 2))
    | none => call size (expression size budget)
  | _ => tooDeep
end

end Parser

end Scriptling
