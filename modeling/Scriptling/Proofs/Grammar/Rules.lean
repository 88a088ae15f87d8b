-- The grammar of the language, rule by rule. `Derives` is the grammar of expressions, with the
-- tree that each phrase stands for. `Allows` is the grammar of statements and declarations as it
-- is written down for a reader: where two `if`s stand before one `else`, it allows both readings.
import Scriptling.Grammar.Statement

namespace Scriptling.Grammar

/-! ## Expressions -/

/-- The levels of the binary operators. -/
inductive Level
  | logicOr | logicAnd | equality | comparison | term | factor
  deriving DecidableEq

namespace Level

/-- The levels from the loosest to the tightest. -/
def all : List Level := [logicOr, logicAnd, equality, comparison, term, factor]

def operators : Level → List Kind
  | logicOr => [.keyword .orWord]
  | logicAnd => [.keyword .andWord]
  | equality => [.bangEqual, .equalEqual]
  | comparison => [.greater, .greaterEqual, .less, .lessEqual]
  | term => [.minus, .plus]
  | factor => [.slash, .star]

/-- The tree of an operation. -/
def node : Level → RawExpr → Token → RawExpr → RawExpr
  | logicOr | logicAnd => .logical
  | _ => .binary

end Level

/-- What the grammar of expressions speaks of. -/
inductive Symbol
  | expression
  /-- Operations of the given levels and of tighter ones, the loosest level first. -/
  | ladder (levels : List Level)
  | unary
  | call
  | primary
  | arguments

abbrev Symbol.Tree : Symbol → Type
  | arguments => List RawExpr
  | _ => RawExpr

/-- The most parameters of a function, and the most arguments of a call. -/
def mostItems : Nat := 255

/-- The tokens derive from a symbol, and stand for a tree. -/
inductive Derives : (s : Symbol) → List Token → s.Tree → Prop
  | assign {name equals : Token} {ts : List Token} {e : RawExpr}
      (hname : name.kind = .identifier) (hequals : equals.kind = .equal)
      (value : Derives .expression ts e) :
      Derives .expression (name :: equals :: ts) (.assign name e ())
  | logicOr {ts : List Token} {e : RawExpr} (operand : Derives (.ladder Level.all) ts e) :
      Derives .expression ts e
  | operand {l : Level} {ls : List Level} {ts : List Token} {e : RawExpr}
      (operand : Derives (.ladder ls) ts e) : Derives (.ladder (l :: ls)) ts e
  | operation {l : Level} {ls : List Level} {ts us : List Token} {operator : Token}
      {e e' : RawExpr} (left : Derives (.ladder (l :: ls)) ts e)
      (hoperator : operator.kind ∈ l.operators) (right : Derives (.ladder ls) us e') :
      Derives (.ladder (l :: ls)) (ts ++ operator :: us) (l.node e operator e')
  | tightest {ts : List Token} {e : RawExpr} (operand : Derives .unary ts e) :
      Derives (.ladder []) ts e
  | sign {operator : Token} {ts : List Token} {e : RawExpr}
      (hoperator : operator.kind = .bang ∨ operator.kind = .minus)
      (operand : Derives .unary ts e) : Derives .unary (operator :: ts) (.unary operator e)
  | unsigned {ts : List Token} {e : RawExpr} (operand : Derives .call ts e) :
      Derives .unary ts e
  | uncalled {ts : List Token} {e : RawExpr} (operand : Derives .primary ts e) :
      Derives .call ts e
  | callEmpty {opening closing : Token} {ts : List Token} {e : RawExpr}
      (callee : Derives .call ts e) (hopening : opening.kind = .leftParen)
      (hclosing : closing.kind = .rightParen) :
      Derives .call (ts ++ [opening, closing]) (.call e closing [])
  | callWith {opening closing : Token} {ts us : List Token} {e : RawExpr} {es : List RawExpr}
      (callee : Derives .call ts e) (hopening : opening.kind = .leftParen)
      (arguments : Derives .arguments us es) (hmost : es.length ≤ mostItems)
      (hclosing : closing.kind = .rightParen) :
      Derives .call (ts ++ opening :: us ++ [closing]) (.call e closing es)
  | lastArgument {ts : List Token} {e : RawExpr} (item : Derives .expression ts e) :
      Derives .arguments ts [e]
  | argument {comma : Token} {ts us : List Token} {e : RawExpr} {es : List RawExpr}
      (item : Derives .expression ts e) (hcomma : comma.kind = .comma)
      (more : Derives .arguments us es) : Derives .arguments (ts ++ comma :: us) (e :: es)
  | falseWord {t : Token} (h : t.kind = .keyword .falseWord) :
      Derives .primary [t] (.literal (.bool false))
  | trueWord {t : Token} (h : t.kind = .keyword .trueWord) :
      Derives .primary [t] (.literal (.bool true))
  | nilWord {t : Token} (h : t.kind = .keyword .nilWord) : Derives .primary [t] (.literal .nil)
  | literal {t : Token} (h : t.kind = .number ∨ t.kind = .string) :
      Derives .primary [t] (.literal t.value)
  | name {t : Token} (h : t.kind = .identifier) : Derives .primary [t] (.variable t ())
  | grouping {opening closing : Token} {ts : List Token} {e : RawExpr}
      (hopening : opening.kind = .leftParen) (inner : Derives .expression ts e)
      (hclosing : closing.kind = .rightParen) :
      Derives .primary (opening :: ts ++ [closing]) (.grouping e)

/-- The tokens are an expression. -/
def IsExpression (ts : List Token) : Prop := ∃ e, Derives .expression ts e

/-! ## Lists of names -/

/-- The tokens are items with commas between them. -/
inductive Separated {α : Type} (item : List Token → α → Prop) : List Token → List α → Prop
  | last {ts : List Token} {a : α} (h : item ts a) : Separated item ts [a]
  | more {comma : Token} {ts us : List Token} {a : α} {as : List α} (h : item ts a)
      (hcomma : comma.kind = .comma) (rest : Separated item us as) :
      Separated item (ts ++ comma :: us) (a :: as)

/-- The tokens are one name. -/
def IsName (ts : List Token) (name : Token) : Prop := ts = [name] ∧ name.kind = .identifier

/-- The tokens are the parameters of a function, none or at most `mostItems`. -/
inductive Parameters : List Token → List Token → Prop
  | none : Parameters [] []
  | some {ts names : List Token} (h : Separated IsName ts names)
      (hmost : names.length ≤ mostItems) : Parameters ts names

/-! ## Statements as they are written down -/

/-- What the grammar of statements speaks of. -/
inductive Part
  | declarations
  | declaration
  | varDecl
  | statement
  | exprStmt
  | block
  /-- What stands first between the parentheses of a `for`. -/
  | initializer

/-- The tokens are an expression, or there are none. -/
def IsOptionalExpression (ts : List Token) : Prop := ts = [] ∨ IsExpression ts

/-- The tokens derive from a part of a program. -/
inductive Allows : Part → List Token → Prop
  | noDeclaration : Allows .declarations []
  | declarations {ts us : List Token} (first : Allows .declaration ts)
      (more : Allows .declarations us) : Allows .declarations (ts ++ us)
  | function {word name opening closing : Token} {ps names us : List Token}
      (hword : word.kind = .keyword .functionWord) (hname : name.kind = .identifier)
      (hopening : opening.kind = .leftParen) (parameters : Parameters ps names)
      (hclosing : closing.kind = .rightParen) (body : Allows .block us) :
      Allows .declaration (word :: name :: opening :: ps ++ closing :: us)
  | varDecl {ts : List Token} (h : Allows .varDecl ts) : Allows .declaration ts
  | statement {ts : List Token} (h : Allows .statement ts) : Allows .declaration ts
  | plainVar {word name semicolon : Token} (hword : word.kind = .keyword .varWord)
      (hname : name.kind = .identifier) (hsemicolon : semicolon.kind = .semicolon) :
      Allows .varDecl [word, name, semicolon]
  | initializedVar {word name equals semicolon : Token} {ts : List Token}
      (hword : word.kind = .keyword .varWord) (hname : name.kind = .identifier)
      (hequals : equals.kind = .equal) (value : IsExpression ts)
      (hsemicolon : semicolon.kind = .semicolon) :
      Allows .varDecl (word :: name :: equals :: ts ++ [semicolon])
  | exprStmt {ts : List Token} (h : Allows .exprStmt ts) : Allows .statement ts
  | expression {semicolon : Token} {ts : List Token} (value : IsExpression ts)
      (hsemicolon : semicolon.kind = .semicolon) : Allows .exprStmt (ts ++ [semicolon])
  | noInitializer {semicolon : Token} (h : semicolon.kind = .semicolon) :
      Allows .initializer [semicolon]
  | varInitializer {ts : List Token} (h : Allows .varDecl ts) : Allows .initializer ts
  | exprInitializer {ts : List Token} (h : Allows .exprStmt ts) : Allows .initializer ts
  | forLoop {word opening semicolon closing : Token} {is cs ns ts : List Token}
      (hword : word.kind = .keyword .forWord) (hopening : opening.kind = .leftParen)
      (initializer : Allows .initializer is) (condition : IsOptionalExpression cs)
      (hsemicolon : semicolon.kind = .semicolon) (increment : IsOptionalExpression ns)
      (hclosing : closing.kind = .rightParen) (body : Allows .statement ts) :
      Allows .statement (word :: opening :: is ++ cs ++ semicolon :: ns ++ closing :: ts)
  | ifThen {word opening closing : Token} {cs ts : List Token}
      (hword : word.kind = .keyword .ifWord) (hopening : opening.kind = .leftParen)
      (condition : IsExpression cs) (hclosing : closing.kind = .rightParen)
      (yes : Allows .statement ts) :
      Allows .statement (word :: opening :: cs ++ closing :: ts)
  | ifElse {word opening closing other : Token} {cs ts us : List Token}
      (hword : word.kind = .keyword .ifWord) (hopening : opening.kind = .leftParen)
      (condition : IsExpression cs) (hclosing : closing.kind = .rightParen)
      (yes : Allows .statement ts) (hother : other.kind = .keyword .elseWord)
      (no : Allows .statement us) :
      Allows .statement (word :: opening :: cs ++ closing :: ts ++ other :: us)
  | print {word semicolon : Token} {ts : List Token} (hword : word.kind = .keyword .printWord)
      (value : IsExpression ts) (hsemicolon : semicolon.kind = .semicolon) :
      Allows .statement (word :: ts ++ [semicolon])
  | giveBack {word semicolon : Token} {ts : List Token}
      (hword : word.kind = .keyword .returnWord) (value : IsOptionalExpression ts)
      (hsemicolon : semicolon.kind = .semicolon) :
      Allows .statement (word :: ts ++ [semicolon])
  | whileLoop {word opening closing : Token} {cs ts : List Token}
      (hword : word.kind = .keyword .whileWord) (hopening : opening.kind = .leftParen)
      (condition : IsExpression cs) (hclosing : closing.kind = .rightParen)
      (body : Allows .statement ts) :
      Allows .statement (word :: opening :: cs ++ closing :: ts)
  | block {ts : List Token} (h : Allows .block ts) : Allows .statement ts
  | braces {opening closing : Token} {ts : List Token} (hopening : opening.kind = .leftBrace)
      (body : Allows .declarations ts) (hclosing : closing.kind = .rightBrace) :
      Allows .block (opening :: ts ++ [closing])

/-- The tokens before the end mark are a program. -/
def IsProgram (ts : List Token) : Prop := Allows .declarations ts

end Scriptling.Grammar
