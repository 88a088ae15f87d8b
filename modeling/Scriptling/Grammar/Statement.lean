-- Statements and declarations. A `for` loop is built from blocks and a plain loop, so no other
-- part of the language knows of it.
import Scriptling.Grammar.Expression

namespace Scriptling

namespace Parser

/-! ## Statements without statements inside -/

/-- The rest of a variable declaration, after its keyword. -/
def varDeclaration (expression : Parser RawExpr) : Parser RawStmt := do
  let name ← expect .identifier .variableName
  let initializer ← match ← accept .equal with
    | some _ => some <$> expression
    | none => pure none
  let _ ← expect .semicolon .semicolonAfterVariable
  return .var name initializer

def expressionStatement (expression : Parser RawExpr) : Parser RawStmt := do
  let e ← expression
  let _ ← expect .semicolon .semicolonAfterExpression
  return .expression e

def printStatement (expression : Parser RawExpr) : Parser RawStmt := do
  let e ← expression
  let _ ← expect .semicolon .semicolonAfterValue
  return .print e

/-- The rest of a return statement, after its keyword. -/
def returnStatement (expression : Parser RawExpr) (keyword : Token) : Parser RawStmt := do
  let value ← if ← check .semicolon then pure none else some <$> expression
  let _ ← expect .semicolon .semicolonAfterReturn
  return .giveBack keyword value

/-! ## Statements with statements inside -/

def ifStatement (expression : Parser RawExpr) (inner : Parser RawStmt) : Parser RawStmt := do
  let _ ← expect .leftParen .parenAfterIf
  let condition ← expression
  let _ ← expect .rightParen .parenAfterIfCondition
  let yes ← inner
  let no ← match ← acceptWord .elseWord with
    | some _ => some <$> inner
    | none => pure none
  return .branch condition yes no

def whileStatement (expression : Parser RawExpr) (inner : Parser RawStmt) : Parser RawStmt := do
  let _ ← expect .leftParen .parenAfterWhile
  let condition ← expression
  let _ ← expect .rightParen .parenAfterCondition
  return .loop condition (← inner)

/-- The loop that a `for` stands for: the initializer runs once in a scope around the loop, an
absent condition is true, and the increment follows the body in a block. -/
def forLoop (initializer : Option RawStmt) (condition increment : Option RawExpr)
    (body : RawStmt) : RawStmt :=
  let body := match increment with
    | some e => .block [body, .expression e]
    | none => body
  let loop := .loop (condition.getD (.literal (.bool true))) body
  match initializer with
  | some s => .block [s, loop]
  | none => loop

def forStatement (expression : Parser RawExpr) (inner : Parser RawStmt) : Parser RawStmt := do
  let _ ← expect .leftParen .parenAfterFor
  let initializer ← match ← accept .semicolon with
    | some _ => pure none
    | none => match ← acceptWord .varWord with
      | some _ => some <$> varDeclaration expression
      | none => some <$> expressionStatement expression
  let condition ← if ← check .semicolon then pure none else some <$> expression
  let _ ← expect .semicolon .semicolonAfterLoopCondition
  let increment ← if ← check .rightParen then pure none else some <$> expression
  let _ ← expect .rightParen .parenAfterForClauses
  return forLoop initializer condition increment (← inner)

/-- Declarations up to a closing brace. Those that could not be read are left out. -/
def block (size : Nat) (inner : Parser (Option RawStmt)) : Parser (List RawStmt) := do
  let body ← many (do
    match ← peek? with
    | none => return none
    | some t => if t.kind = .rightBrace then return none else some <$> inner) size
  let _ ← expect .rightBrace .braceAfterBlock
  return body.reduceOption

/-- The rest of a block statement, after its opening brace. -/
def blockStatement (size : Nat) (inner : Parser (Option RawStmt)) : Parser RawStmt := do
  return .block (← block size inner)

/-- The rest of a function declaration, after its keyword. -/
def function (size : Nat) (inner : Parser (Option RawStmt)) : Parser RawStmt := do
  let name ← expect .identifier .functionName
  let _ ← expect .leftParen .parenAfterFunctionName
  let parameters ←
    if ← check .rightParen then pure []
    else commaSeparated size (expect .identifier .parameterName) .tooManyParameters
  let _ ← expect .rightParen .parenAfterParameters
  let _ ← expect .leftBrace .braceBeforeBody
  return .function name parameters (← block size inner)

/-! ## Nesting -/

mutual
/-- A declaration or a statement, or nothing where it is malformed. -/
def declaration (size : Nat) : Nat → Parser (Option RawStmt)
  | budget + 3 => recovering do
    match ← acceptWord .functionWord with
    | some _ => function size (declaration size budget)
    | none => match ← acceptWord .varWord with
      | some _ => varDeclaration (expression size (budget + 1))
      | none => statement size (budget + 2)
  | _ => tooDeep

/-- A statement. One statement inside another costs two of the budget. -/
def statement (size : Nat) : Nat → Parser RawStmt
  | budget + 2 => fun tokens =>
    match tokens with
    | [] => expressionStatement (expression size budget) []
    | t :: rest =>
      match t.kind with
      | .keyword .forWord => forStatement (expression size budget) (statement size budget) rest
      | .keyword .ifWord => ifStatement (expression size budget) (statement size budget) rest
      | .keyword .printWord => printStatement (expression size budget) rest
      | .keyword .returnWord => returnStatement (expression size budget) t rest
      | .keyword .whileWord => whileStatement (expression size budget) (statement size budget) rest
      | .leftBrace => blockStatement size (declaration size budget) rest
      | _ => expressionStatement (expression size budget) (t :: rest)
  | _ => tooDeep
end

end Parser

end Scriptling
