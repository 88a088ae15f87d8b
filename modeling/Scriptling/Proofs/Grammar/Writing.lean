-- Trees written out as tokens, and the trees for which that can be undone: in a neat tree every
-- operand binds as tightly as its place asks, so that no brackets are missing, and no `else`
-- would be taken by the wrong `if`. A neat tree is a reading of what is written.
import Scriptling.Proofs.Grammar.Regular
import Scriptling.Source.Lexed

namespace Scriptling

/-! ## Writing tokens -/

/-- How tokens of a kind are spelled, where all of them are spelled alike. -/
def Kind.spelling : Kind → String
  | leftParen => "("
  | rightParen => ")"
  | leftBrace => "\x7b"
  | rightBrace => "\x7d"
  | comma => ","
  | dot => "."
  | minus => "-"
  | plus => "+"
  | semicolon => ";"
  | slash => "/"
  | star => "*"
  | bang => "!"
  | bangEqual => "!="
  | equal => "="
  | equalEqual => "=="
  | greater => ">"
  | greaterEqual => ">="
  | less => "<"
  | lessEqual => "<="
  | keyword k => k.word
  | identifier | string | number | eof => ""

/-- All tokens of the kind are spelled alike. -/
def Kind.isSpelled : Kind → Bool
  | identifier | string | number | eof => false
  | _ => true

/-- A token that a tree does not keep: it is written anew, on no line in particular. -/
def Token.mark (k : Kind) : Token := ⟨k, k.spelling, none, 1⟩

/-- The value can be written as a literal. -/
def Value.isLiteral : Value → Bool
  | .nil | .bool _ | .number _ | .text _ => true
  | .integer _ | .function _ | .native _ => false

/-- The literal token of a value. -/
def Value.written : Value → Token
  | .bool true => .mark (.keyword .trueWord)
  | .bool false => .mark (.keyword .falseWord)
  | .number x => ⟨.number, (Literal.number x).listing, some (.number x), 1⟩
  | .text s => ⟨.string, "\"" ++ s ++ "\"", some (.text s), 1⟩
  | _ => .mark (.keyword .nilWord)

/-- What a tree tells of a token: the kind, the text of a name, and the value of a literal. -/
def Token.gist (t : Token) : Kind × String × Option Literal :=
  (t.kind, if t.kind = .identifier then t.lexeme else "",
    if t.kind = .number ∨ t.kind = .string then t.literal else none)

/-- The token carries the value that its kind calls for. -/
def Token.carries (t : Token) : Bool :=
  match t.kind, t.literal with
  | .number, some (.number _) | .string, some (.text _) => true
  | .number, _ | .string, _ => false
  | _, _ => true

/-! ## Writing trees -/

mutual
/-- The tokens of an expression in the order in which they are read. -/
def Expr.write : RawExpr → List Token
  | .literal value => [value.written]
  | .grouping inner => .mark .leftParen :: inner.write ++ [.mark .rightParen]
  | .unary operator right => operator :: right.write
  | .binary left operator right => left.write ++ operator :: right.write
  | .logical left operator right => left.write ++ operator :: right.write
  | .variable name _ => [name]
  | .assign name value _ => name :: .mark .equal :: value.write
  | .call callee paren arguments =>
    callee.write ++ .mark .leftParen :: Expr.writeAll arguments ++ [paren]
  | .alien _ => []

/-- Expressions with commas between them. -/
def Expr.writeAll : List RawExpr → List Token
  | [] => []
  | [e] => e.write
  | e :: e' :: rest => e.write ++ .mark .comma :: Expr.writeAll (e' :: rest)
end

/-- Names with commas between them. -/
def writeNames : List Token → List Token
  | [] => []
  | [name] => [name]
  | name :: name' :: rest => name :: .mark .comma :: writeNames (name' :: rest)

def Expr.writeOption (e : Option RawExpr) : List Token := e.elim [] Expr.write

mutual
def Stmt.write : RawStmt → List Token
  | .expression e => e.write ++ [.mark .semicolon]
  | .print e => .mark (.keyword .printWord) :: e.write ++ [.mark .semicolon]
  | .var name none => [.mark (.keyword .varWord), name, .mark .semicolon]
  | .var name (some e) =>
    .mark (.keyword .varWord) :: name :: .mark .equal :: e.write ++ [.mark .semicolon]
  | .block body => .mark .leftBrace :: Stmt.writeAll body ++ [.mark .rightBrace]
  | .branch condition yes none =>
    .mark (.keyword .ifWord) :: .mark .leftParen :: condition.write ++
      .mark .rightParen :: yes.write
  | .branch condition yes (some no) =>
    .mark (.keyword .ifWord) :: .mark .leftParen :: condition.write ++
      .mark .rightParen :: yes.write ++ .mark (.keyword .elseWord) :: no.write
  | .loop condition body =>
    .mark (.keyword .whileWord) :: .mark .leftParen :: condition.write ++
      .mark .rightParen :: body.write
  | .function name parameters body =>
    .mark (.keyword .functionWord) :: name :: .mark .leftParen :: writeNames parameters ++
      .mark .rightParen :: (.mark .leftBrace :: Stmt.writeAll body ++ [.mark .rightBrace])
  | .giveBack keyword value => keyword :: Expr.writeOption value ++ [.mark .semicolon]
  | .alien _ => []

/-- The tokens of statements that follow each other. -/
def Stmt.writeAll : List RawStmt → List Token
  | [] => []
  | s :: rest => s.write ++ Stmt.writeAll rest
end

/-! ## Neat trees -/

namespace Grammar

/-- How tightly the operators of a level bind. -/
def Level.rank : Level → Nat
  | logicOr => 1
  | logicAnd => 2
  | equality => 3
  | comparison => 4
  | term => 5
  | factor => 6

/-- The level of an operator that may leave its right operand alone. -/
def Level.ofLogical? : Kind → Option Level
  | .keyword .orWord => some .logicOr
  | .keyword .andWord => some .logicAnd
  | _ => none

/-- The level of an operator that takes both operands. -/
def Level.ofBinary? : Kind → Option Level
  | .bangEqual | .equalEqual => some .equality
  | .greater | .greaterEqual | .less | .lessEqual => some .comparison
  | .minus | .plus => some .term
  | .slash | .star => some .factor
  | _ => none

end Grammar

open Grammar

/-- How tightly a tree binds: an assignment least, then the operations by their level, then unary
operations, calls, and what stands alone. -/
def Expr.rank : RawExpr → Nat
  | .assign .. => 0
  | .logical _ operator _ => (Level.ofLogical? operator.kind).elim 0 Level.rank
  | .binary _ operator _ => (Level.ofBinary? operator.kind).elim 0 Level.rank
  | .unary .. => 7
  | .call .. => 8
  | _ => 9

/-- An operation groups to the left: the left operand may be of its own level. -/
def Grammar.Level.joins (level : Option Level) (left right : RawExpr) : Bool :=
  level.any fun l => l.rank ≤ left.rank && l.rank < right.rank

mutual
/-- Every operand binds as tightly as its place asks, and every token is of the right kind. -/
def Expr.neat : RawExpr → Bool
  | .literal value => value.isLiteral
  | .grouping inner => inner.neat
  | .unary operator right => unaryKinds.contains operator.kind && 7 ≤ right.rank && right.neat
  | .binary left operator right =>
    Level.joins (Level.ofBinary? operator.kind) left right && left.neat && right.neat
  | .logical left operator right =>
    Level.joins (Level.ofLogical? operator.kind) left right && left.neat && right.neat
  | .variable name _ => name.kind == .identifier
  | .assign name value _ => name.kind == .identifier && value.neat
  | .call callee paren arguments =>
    8 ≤ callee.rank && callee.neat && paren.kind == .rightParen &&
      arguments.length ≤ mostItems && Expr.neatAll arguments
  | .alien _ => false

def Expr.neatAll : List RawExpr → Bool
  | [] => true
  | e :: rest => e.neat && Expr.neatAll rest
end

/-- An `else` right behind the statement would belong to it. -/
def Stmt.openEnded : RawStmt → Bool
  | .branch _ _ none => true
  | .branch _ _ (some no) => no.openEnded
  | .loop _ body => body.openEnded
  | _ => false

mutual
/-- The expressions are neat, nothing is declared right under a condition or a loop, and an `else`
stands behind a statement that does not take it. -/
def Stmt.neat : RawStmt → Bool
  | .expression e => e.neat
  | .print e => e.neat
  | .var name initializer => name.kind == .identifier && initializer.all Expr.neat
  | .block body => Stmt.neatAll body
  | .branch condition yes none => condition.neat && !yes.declares && yes.neat
  | .branch condition yes (some no) =>
    condition.neat && !yes.declares && yes.neat && !yes.openEnded && !no.declares && no.neat
  | .loop condition body => condition.neat && !body.declares && body.neat
  | .function name parameters body =>
    name.kind == .identifier && parameters.all (·.kind == .identifier) &&
      parameters.length ≤ mostItems && Stmt.neatAll body
  | .giveBack keyword value => keyword.kind == .keyword .returnWord && value.all Expr.neat
  | .alien _ => false

def Stmt.neatAll : List RawStmt → Bool
  | [] => true
  | s :: rest => s.neat && Stmt.neatAll rest
end

end Scriptling
