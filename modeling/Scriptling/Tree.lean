-- Syntax trees. Each use of a variable carries a label: none while the tree is being built,
-- a number once the tree belongs to a session. The other parts of a tree are the same for all
-- labels.
import Scriptling.Token
import Scriptling.Value

namespace Scriptling

/-! ## Expressions and statements -/

inductive Expr (ι : Type) : Type
  | literal (value : Value)
  | grouping (inner : Expr ι)
  | unary (operator : Token) (right : Expr ι)
  | binary (left : Expr ι) (operator : Token) (right : Expr ι)
  | logical (left : Expr ι) (operator : Token) (right : Expr ι)
  | variable (name : Token) (label : ι)
  | assign (name : Token) (value : Expr ι) (label : ι)
  /-- A call keeps its closing parenthesis: errors of the call are reported there. -/
  | call (callee : Expr ι) (paren : Token) (arguments : List (Expr ι))
  /-- Something that is no expression, put into a tree by hand. -/
  | alien (text : String)

inductive Stmt (ι : Type) : Type
  | expression (e : Expr ι)
  | print (e : Expr ι)
  | var (name : Token) (initializer : Option (Expr ι))
  | block (body : List (Stmt ι))
  | branch (condition : Expr ι) (yes : Stmt ι) (no : Option (Stmt ι))
  | loop (condition : Expr ι) (body : Stmt ι)
  | function (name : Token) (parameters : List Token) (body : List (Stmt ι))
  | giveBack (keyword : Token) (value : Option (Expr ι))
  /-- Something that is no statement, put into a tree by hand. -/
  | alien (text : String)

/-- Trees as they are read, before the uses of variables are told apart. -/
abbrev RawExpr := Expr Unit

abbrev RawStmt := Stmt Unit

/-- Names one use of a variable in one session. -/
abbrev UseId := Nat

/-! ## The tokens of a tree -/

mutual
/-- The tokens that an expression keeps. Literals and brackets leave none. -/
def Expr.tokens {ι : Type} : Expr ι → List Token
  | .literal _ => []
  | .grouping inner => inner.tokens
  | .unary operator right => operator :: right.tokens
  | .binary left operator right => left.tokens ++ operator :: right.tokens
  | .logical left operator right => left.tokens ++ operator :: right.tokens
  | .variable name _ => [name]
  | .assign name value _ => name :: value.tokens
  | .call callee paren arguments => callee.tokens ++ paren :: Expr.tokensOfAll arguments
  | .alien _ => []

def Expr.tokensOfAll {ι : Type} : List (Expr ι) → List Token
  | [] => []
  | e :: rest => e.tokens ++ Expr.tokensOfAll rest
end

def Expr.tokensOfOption {ι : Type} (e : Option (Expr ι)) : List Token := e.elim [] Expr.tokens

mutual
/-- The tokens that a statement keeps, those of a loop's condition before those of its body. -/
def Stmt.tokens {ι : Type} : Stmt ι → List Token
  | .expression e => e.tokens
  | .print e => e.tokens
  | .var name initializer => name :: Expr.tokensOfOption initializer
  | .block body => Stmt.tokensOfAll body
  | .branch condition yes no => condition.tokens ++ yes.tokens ++ Stmt.tokensOfOption no
  | .loop condition body => condition.tokens ++ body.tokens
  | .function name parameters body => name :: parameters ++ Stmt.tokensOfAll body
  | .giveBack keyword value => keyword :: Expr.tokensOfOption value
  | .alien _ => []

def Stmt.tokensOfOption {ι : Type} : Option (Stmt ι) → List Token
  | none => []
  | some s => s.tokens

def Stmt.tokensOfAll {ι : Type} : List (Stmt ι) → List Token
  | [] => []
  | s :: rest => s.tokens ++ Stmt.tokensOfAll rest
end

/-- The line of the first token that a statement keeps, 0 if it keeps none. -/
def Stmt.firstLine {ι : Type} (s : Stmt ι) : Int := (s.tokens.head?.map Token.line).getD 0

/-! ## The uses of variables -/

/-- A place where a variable is read or assigned. -/
structure Use (ι : Type) where
  assigns : Bool
  name : Token
  label : ι

mutual
/-- The uses in an expression, an assignment before those in its value. -/
def Expr.uses {ι : Type} : Expr ι → List (Use ι)
  | .literal _ => []
  | .grouping inner => inner.uses
  | .unary _ right => right.uses
  | .binary left _ right => left.uses ++ right.uses
  | .logical left _ right => left.uses ++ right.uses
  | .variable name label => [⟨false, name, label⟩]
  | .assign name value label => ⟨true, name, label⟩ :: value.uses
  | .call callee _ arguments => callee.uses ++ Expr.usesInAll arguments
  | .alien _ => []

def Expr.usesInAll {ι : Type} : List (Expr ι) → List (Use ι)
  | [] => []
  | e :: rest => e.uses ++ Expr.usesInAll rest
end

def Expr.usesInOption {ι : Type} (e : Option (Expr ι)) : List (Use ι) := e.elim [] Expr.uses

mutual
def Stmt.uses {ι : Type} : Stmt ι → List (Use ι)
  | .expression e => e.uses
  | .print e => e.uses
  | .var _ initializer => Expr.usesInOption initializer
  | .block body => Stmt.usesInAll body
  | .branch condition yes no => condition.uses ++ yes.uses ++ Stmt.usesInOption no
  | .loop condition body => condition.uses ++ body.uses
  | .function _ _ body => Stmt.usesInAll body
  | .giveBack _ value => Expr.usesInOption value
  | .alien _ => []

def Stmt.usesInOption {ι : Type} : Option (Stmt ι) → List (Use ι)
  | none => []
  | some s => s.uses

def Stmt.usesInAll {ι : Type} : List (Stmt ι) → List (Use ι)
  | [] => []
  | s :: rest => s.uses ++ Stmt.usesInAll rest
end

end Scriptling
