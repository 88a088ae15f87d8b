-- The parser as a cursor that moves over a row of tokens with a mark at its end. A step reads the
-- token at the cursor or the one before it, reports an error or moves on; a run keeps a log of
-- what it did. Reading outside of the row and a loop that goes on for ever are outcomes of
-- their own here, so that a proof can say that they never come.
import Scriptling.Grammar.Program

namespace Scriptling

/-! ## Cursors -/

/-- What is written down about a run. Errors are counted from its start. -/
inductive Event
  /-- The cursor moved to a place. -/
  | moved (current : Nat)
  /-- The token before the cursor was read. -/
  | lookedBack (current : Nat)
  /-- A call for a declaration made at `start` is over, the cursor being at `stop`. -/
  | declared (start stop : Nat)
  /-- A call for a declaration gave none. There were `since` errors when it was made. -/
  | dropped (since now : Nat)
  /-- A token was skipped on the way to the next statement. There were `since` errors when the
  call for the declaration was made that is abandoned. -/
  | skipped (since now : Nat)
  deriving DecidableEq, Repr

/-- Why a run breaks off. -/
inductive Breach
  | unwind (u : Unwind)
  /-- A token was read that is not there, or the one before the first. -/
  | outOfBounds
  /-- A loop made more turns than there are tokens. -/
  | endless

structure Cursor where
  tokens : List Token
  current : Nat
  errors : List StaticError
  /-- Where the calls for a declaration were made that are not over. -/
  calls : List Nat
  log : List Event

/-- A cursor before the first token. -/
def Cursor.start (tokens : List Token) : Cursor := ⟨tokens, 0, [], [], []⟩

abbrev Reader := EStateM Breach Cursor

namespace Reader

variable {α : Type}

/-! ## Looking at tokens and taking them -/

def note (e : Event) : Reader Unit := modify fun c => { c with log := e :: c.log }

def tokenAt (i : Nat) : Reader Token := fun c =>
  match c.tokens[i]? with
  | some t => .ok t c
  | none => .error .outOfBounds c

def peek : Reader Token := do tokenAt (← get).current

def previous : Reader Token := do
  let current := (← get).current
  note (.lookedBack current)
  if current = 0 then throw .outOfBounds
  tokenAt (current - 1)

def isAtEnd : Reader Bool := return (← peek).kind == .eof

/-- Take the next token, unless it is the mark at the end. -/
def advance : Reader Token := do
  if !(← isAtEnd) then
    modify fun c => { c with current := c.current + 1 }
    note (.moved (← get).current)
  previous

def checkIf (p : Kind → Bool) : Reader Bool := do
  if ← isAtEnd then return false
  return p (← peek).kind

def check (k : Kind) : Reader Bool := checkIf (· == k)

def acceptIf (p : Kind → Bool) : Reader (Option Token) := do
  if ← checkIf p then return some (← advance) else return none

def accept (k : Kind) : Reader (Option Token) := acceptIf (· == k)

def acceptWord (k : Keyword) : Reader (Option Token) := accept (.keyword k)

/-! ## Errors -/

def complainAt (t : Token) (p : Problem) : Reader Unit :=
  modify fun c => { c with errors := c.errors ++ [.atToken t p] }

def complain (p : Problem) : Reader Unit := do complainAt (← peek) p

def refuse (p : Problem) : Reader α := do
  complain p
  throw (.unwind .malformed)

def tooDeep : Reader α := throw (.unwind .tooDeep)

def expect (k : Kind) (p : Problem) : Reader Token := do
  match ← accept k with
  | some t => return t
  | none => refuse p

/-! ## Loops -/

/-- How many turns a loop may make. -/
def turns : Reader Nat := return (← get).tokens.length

def iterateFor (step : α → Reader (Option α)) : Nat → α → Reader α
  | 0, _ => throw .endless
  | n + 1, a => do
    match ← step a with
    | none => return a
    | some b => iterateFor step n b

def iterate (step : α → Reader (Option α)) (a : α) : Reader α := do
  iterateFor step (← turns) a

def manyFor (step : Reader (Option α)) : Nat → Reader (List α)
  | 0 => throw .endless
  | n + 1 => do
    match ← step with
    | none => return []
    | some a => return a :: (← manyFor step n)

def many (step : Reader (Option α)) : Reader (List α) := do manyFor step (← turns)

def moreItemsFor (item : Reader α) (tooMany : Problem) : Nat → Nat → Reader (List α)
  | 0, _ => throw .endless
  | n + 1, count => do
    match ← accept .comma with
    | none => return []
    | some _ =>
      if argumentLimit ≤ count then complain tooMany
      let a ← item
      let rest ← moreItemsFor item tooMany n (count + 1)
      return a :: rest

def moreItems (item : Reader α) (tooMany : Problem) (count : Nat) : Reader (List α) := do
  moreItemsFor item tooMany (← turns) count

def commaSeparated (item : Reader α) (tooMany : Problem) : Reader (List α) := do
  let first ← item
  let rest ← moreItems item tooMany 1
  return first :: rest

/-! ## Recovery -/

/-- Skip a token on the way to the next statement. -/
def skip (since : Nat) : Reader Unit := do
  note (.skipped since (← get).errors.length)
  let _ ← advance

def skipFor (since : Nat) : Nat → Reader Unit
  | 0 => throw .endless
  | n + 1 => do
    if ← isAtEnd then return
    if (← previous).kind = .semicolon then return
    if (← peek).kind.startsStatement then return
    skip since
    skipFor since n

def synchronize (since : Nat) : Reader Unit := do
  skip since
  skipFor since (← turns)

/-- Give up on a declaration, and go on to the next statement. -/
def abandon (since : Nat) : Reader Unit := do
  synchronize since
  note (.dropped since (← get).errors.length)

/-- The last call for a declaration is over. -/
def endCall : Reader Unit := modify fun c =>
  match c.calls with
  | start :: calls => { c with calls := calls, log := .declared start c.current :: c.log }
  | [] => c

/-- All calls for a declaration are over that were made after those of `outer`. -/
def endCalls (outer : List Nat) : Reader Unit := modify fun c =>
  let ended := c.calls.take (c.calls.length - outer.length)
  { c with calls := outer, log := ended.map (.declared · c.current) ++ c.log }

/-- A call for a declaration. Where its tokens do not fit, it gives none; where they nest too
deeply, it is left open. -/
def recovering (p : Reader α) : Reader (Option α) := fun c =>
  match p { c with calls := c.current :: c.calls } with
  | .ok a c' => (do endCall; return some a) c'
  | .error (.unwind .malformed) c' =>
    (do abandon c.errors.length; endCall; return none) c'
  | .error h c' => .error h c'

/-! ## Expressions -/

def chain (rung : Parser.Rung) (operand : Reader RawExpr) : Reader RawExpr := do
  let first ← operand
  iterate (fun left => do
    match ← acceptIf rung.operators.contains with
    | none => return none
    | some operator => return some (rung.join left operator (← operand))) first

def ladder (operand : Reader RawExpr) : Reader RawExpr := Parser.rungs.foldr chain operand

def grouping (nested : Reader RawExpr) : Reader RawExpr := do
  let inner ← nested
  let _ ← expect .rightParen .parenAfterExpression
  return .grouping inner

def primary (nested : Reader RawExpr) : Reader RawExpr := do
  if (← acceptWord .falseWord).isSome then return .literal (.bool false)
  if (← acceptWord .trueWord).isSome then return .literal (.bool true)
  if (← acceptWord .nilWord).isSome then return .literal .nil
  if let some t ← acceptIf [Kind.number, .string].contains then return .literal t.value
  if let some t ← accept .identifier then return .variable t ()
  if (← accept .leftParen).isSome then return ← grouping nested
  refuse .expression

def finishCall (nested : Reader RawExpr) (callee : RawExpr) : Reader RawExpr := do
  let arguments ←
    if ← check .rightParen then pure []
    else commaSeparated nested .tooManyArguments
  let paren ← expect .rightParen .parenAfterArguments
  return .call callee paren arguments

def call (nested : Reader RawExpr) : Reader RawExpr := do
  let term ← primary nested
  iterate (fun callee => do
    match ← accept .leftParen with
    | none => return none
    | some _ => return some (← finishCall nested callee)) term

mutual
def expression : Nat → Reader RawExpr
  | budget + 12 => do
    let target ← ladder (unary budget)
    match ← accept .equal with
    | none => return target
    | some equals =>
      let value ← expression (budget + 11)
      match target with
      | .variable name _ => return .assign name value ()
      | _ =>
        complainAt equals .assignmentTarget
        return target
  | _ => tooDeep

def unary : Nat → Reader RawExpr
  | budget + 3 => do
    match ← acceptIf [Kind.bang, .minus].contains with
    | some operator => return .unary operator (← unary (budget + 2))
    | none => call (expression budget)
  | _ => tooDeep
end

/-! ## Statements -/

def varDeclaration (expression : Reader RawExpr) : Reader RawStmt := do
  let name ← expect .identifier .variableName
  let initializer ← match ← accept .equal with
    | some _ => some <$> expression
    | none => pure none
  let _ ← expect .semicolon .semicolonAfterVariable
  return .var name initializer

def expressionStatement (expression : Reader RawExpr) : Reader RawStmt := do
  let e ← expression
  let _ ← expect .semicolon .semicolonAfterExpression
  return .expression e

def printStatement (expression : Reader RawExpr) : Reader RawStmt := do
  let e ← expression
  let _ ← expect .semicolon .semicolonAfterValue
  return .print e

def returnStatement (expression : Reader RawExpr) (keyword : Token) : Reader RawStmt := do
  let value ← if ← check .semicolon then pure none else some <$> expression
  let _ ← expect .semicolon .semicolonAfterReturn
  return .giveBack keyword value

def ifStatement (expression : Reader RawExpr) (inner : Reader RawStmt) : Reader RawStmt := do
  let _ ← expect .leftParen .parenAfterIf
  let condition ← expression
  let _ ← expect .rightParen .parenAfterIfCondition
  let yes ← inner
  let no ← match ← acceptWord .elseWord with
    | some _ => some <$> inner
    | none => pure none
  return .branch condition yes no

def whileStatement (expression : Reader RawExpr) (inner : Reader RawStmt) : Reader RawStmt := do
  let _ ← expect .leftParen .parenAfterWhile
  let condition ← expression
  let _ ← expect .rightParen .parenAfterCondition
  return .loop condition (← inner)

def forStatement (expression : Reader RawExpr) (inner : Reader RawStmt) : Reader RawStmt := do
  let _ ← expect .leftParen .parenAfterFor
  let initializer ← match ← accept .semicolon with
    | some _ => pure none
    | none => match ← acceptWord .varWord with
      | some _ => some <$> varDeclaration expression
      | none => some <$> expressionStatement expression
  let condition ← if ← check .semicolon then pure none else some <$> expression
  let _ ← expect .semicolon .semicolonAfterLoopCondition
  let increment ← if ← check .rightParen then pure none else some <$> expression
  let _ ← expect .rightParen .parenAfterForClauses
  return Parser.forLoop initializer condition increment (← inner)

def blockItem (inner : Reader (Option RawStmt)) : Reader (Option (Option RawStmt)) := do
  if ← check .rightBrace then return none
  if ← isAtEnd then return none
  some <$> inner

def block (inner : Reader (Option RawStmt)) : Reader (List RawStmt) := do
  let body ← many (blockItem inner)
  let _ ← expect .rightBrace .braceAfterBlock
  return body.reduceOption

def blockStatement (inner : Reader (Option RawStmt)) : Reader RawStmt := do
  return .block (← block inner)

def function (inner : Reader (Option RawStmt)) : Reader RawStmt := do
  let name ← expect .identifier .functionName
  let _ ← expect .leftParen .parenAfterFunctionName
  let parameters ←
    if ← check .rightParen then pure []
    else commaSeparated (expect .identifier .parameterName) .tooManyParameters
  let _ ← expect .rightParen .parenAfterParameters
  let _ ← expect .leftBrace .braceBeforeBody
  return .function name parameters (← block inner)

mutual
def declaration : Nat → Reader (Option RawStmt)
  | budget + 3 => recovering do
    match ← acceptWord .functionWord with
    | some _ => function (declaration budget)
    | none => match ← acceptWord .varWord with
      | some _ => varDeclaration (expression (budget + 1))
      | none => statement (budget + 2)
  | _ => recovering tooDeep

def statement : Nat → Reader RawStmt
  | budget + 2 => do
    if (← acceptWord .forWord).isSome then
      return ← forStatement (expression budget) (statement budget)
    if (← acceptWord .ifWord).isSome then
      return ← ifStatement (expression budget) (statement budget)
    if (← acceptWord .printWord).isSome then return ← printStatement (expression budget)
    if let some keyword ← acceptWord .returnWord then
      return ← returnStatement (expression budget) keyword
    if (← acceptWord .whileWord).isSome then
      return ← whileStatement (expression budget) (statement budget)
    if (← accept .leftBrace).isSome then return ← blockStatement (declaration budget)
    expressionStatement (expression budget)
  | _ => tooDeep
end

/-! ## Programs -/

/-- A declaration at the top level. One that nests too deeply is dropped with an error. -/
def topLevel (budget : Nat) : Reader (Option RawStmt) := fun c =>
  match declaration budget c with
  | .error (.unwind .tooDeep) c' =>
    (do
      complain .tooDeep
      abandon c.errors.length
      endCalls c.calls
      return none) c'
  | result => result

def topItem (inner : Reader (Option RawStmt)) : Reader (Option (Option RawStmt)) := do
  if ← isAtEnd then return none
  some <$> inner

def program (budget : Nat) : Reader (List RawStmt) := do
  return (← many (topItem (topLevel budget))).reduceOption

end Reader

end Scriptling
