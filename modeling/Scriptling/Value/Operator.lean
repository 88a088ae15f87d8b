-- The operators on values, and the text in which a value is shown.
import Scriptling.Number.Layout
import Scriptling.Report
import Scriptling.Value

namespace Scriptling.Value

/-! ## Display -/

/-- The text that printing a value writes. -/
def display : Value → String
  | nil => "nil"
  | bool b => if b then "true" else "false"
  | number x => Number.Layout.display.write x
  | integer n => Number.Layout.display.write (Float.ofInt n)
  | text s => s
  | function c => "<fn " ++ c.name ++ ">"
  | native _ => "<native fn>"

/-! ## Operators -/

/-- Apply a unary operator. -/
def unary (operator : Token) (right : Value) : Except RuntimeError Value :=
  match operator.kind with
  | .minus =>
    match right.number? with
    | some x => .ok (number (-x))
    | none => .error ⟨operator, .operandNotNumber⟩
  | .bang => .ok (bool (!right.isTruthy))
  | _ => .error ⟨operator, .unknownUnary operator.lexeme⟩

/-- Numbers are added, strings are joined. -/
def plus (operator : Token) (left right : Value) : Except RuntimeError Value :=
  match left.number?, right.number? with
  | some x, some y => .ok (number (x + y))
  | _, _ =>
    match left, right with
    | text s, text t => .ok (text (s ++ t))
    | _, _ => .error ⟨operator, .operandsNotAddable⟩

/-- The operators that take two numbers. Division follows the rules of floating point, so it
never fails. -/
def arithmetic (operator : Token) (x y : Float) : Except RuntimeError Value :=
  match operator.kind with
  | .minus => .ok (number (x - y))
  | .star => .ok (number (x * y))
  | .slash => .ok (number (x / y))
  | .greater => .ok (bool (decide (y < x)))
  | .greaterEqual => .ok (bool (decide (y ≤ x)))
  | .less => .ok (bool (decide (x < y)))
  | .lessEqual => .ok (bool (decide (x ≤ y)))
  | _ => .error ⟨operator, .unknownBinary operator.lexeme⟩

/-- Apply a binary operator. All but equality and plus ask for numbers before they look at
what the operator is. -/
def binary (operator : Token) (left right : Value) : Except RuntimeError Value :=
  match operator.kind with
  | .equalEqual => .ok (bool (left.equals right))
  | .bangEqual => .ok (bool (!left.equals right))
  | .plus => plus operator left right
  | _ =>
    match left.number?, right.number? with
    | some x, some y => arithmetic operator x y
    | _, _ => .error ⟨operator, .operandsNotNumbers⟩

end Scriptling.Value
