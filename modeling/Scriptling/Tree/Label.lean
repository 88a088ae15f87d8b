-- Labels: every use of a variable in a tree gets a number of its own, counted up from a given
-- one in the order of `uses`.
import Scriptling.Tree

namespace Scriptling

/-- The next number not used yet. -/
def freshLabel : StateM Nat UseId := modifyGet fun n => (n, n + 1)

mutual
def Expr.label : RawExpr → StateM Nat (Expr UseId)
  | .literal value => return .literal value
  | .grouping inner => return .grouping (← inner.label)
  | .unary operator right => return .unary operator (← right.label)
  | .binary left operator right => do
    let left ← left.label
    return .binary left operator (← right.label)
  | .logical left operator right => do
    let left ← left.label
    return .logical left operator (← right.label)
  | .variable name _ => return .variable name (← freshLabel)
  | .assign name value _ => do
    let n ← freshLabel
    return .assign name (← value.label) n
  | .call callee paren arguments => do
    let callee ← callee.label
    return .call callee paren (← Expr.labelAll arguments)
  | .alien text => return .alien text

def Expr.labelAll : List RawExpr → StateM Nat (List (Expr UseId))
  | [] => return []
  | e :: rest => do
    let e ← e.label
    return e :: (← Expr.labelAll rest)
end

def Expr.labelOption : Option RawExpr → StateM Nat (Option (Expr UseId))
  | none => return none
  | some e => return some (← e.label)

mutual
def Stmt.label : RawStmt → StateM Nat (Stmt UseId)
  | .expression e => return .expression (← e.label)
  | .print e => return .print (← e.label)
  | .var name initializer => return .var name (← Expr.labelOption initializer)
  | .block body => return .block (← Stmt.labelAll body)
  | .branch condition yes no => do
    let condition ← condition.label
    let yes ← yes.label
    return .branch condition yes (← Stmt.labelOption no)
  | .loop condition body => do
    let condition ← condition.label
    return .loop condition (← body.label)
  | .function name parameters body => return .function name parameters (← Stmt.labelAll body)
  | .giveBack keyword value => return .giveBack keyword (← Expr.labelOption value)
  | .alien text => return .alien text

def Stmt.labelOption : Option RawStmt → StateM Nat (Option (Stmt UseId))
  | none => return none
  | some s => return some (← s.label)

def Stmt.labelAll : List RawStmt → StateM Nat (List (Stmt UseId))
  | [] => return []
  | s :: rest => do
    let s ← s.label
    return s :: (← Stmt.labelAll rest)
end

end Scriptling
