-- What an editor knows of a text without running it: the names it declares, where they stand, and
-- the errors in it.
import Scriptling.Grammar.Program
import Scriptling.Host
import Scriptling.Scope.Resolution
import Scriptling.Text.Line
import Scriptling.Tree.Label

namespace Scriptling.Editor

/-! ## Declarations -/

inductive DeclarationKind
  | var
  | function
  | parameter
  deriving DecidableEq, Repr

def DeclarationKind.text : DeclarationKind → String
  | var => "var"
  | function => "function"
  | parameter => "parameter"

/-- A declared name. Lines and columns are counted from 0, columns in characters. -/
structure Declaration where
  name : String
  kind : DeclarationKind
  line : Nat
  column : Nat
  /-- The name with its parameters for a function, else empty. -/
  detail : String
  deriving DecidableEq, Repr

/-- A line counted from 1 as one counted from 0. What stands before the first line counts as on
it. -/
def fromZero (line : Int) : Nat := (line - 1).toNat

/-- Where a token's text first occurs on the token's line, 0 if it does not. -/
def columnOf (lines : List Text.Line) (t : Token) : Nat :=
  (lines[fromZero t.line]?.bind fun l => Text.indexOf? t.lexeme.toList l.body).getD 0

def Declaration.ofToken (lines : List Text.Line) (kind : DeclarationKind) (detail : String)
    (t : Token) : Declaration :=
  ⟨t.lexeme, kind, fromZero t.line, columnOf lines t, detail⟩

/-- A function's name with its parameters. -/
def signature (name : Token) (parameters : List Token) : String :=
  name.lexeme ++ "(" ++ ", ".intercalate (parameters.map (·.lexeme)) ++ ")"

mutual
/-- The names that a statement declares, at any depth, in the order of the text. -/
def declarations {ι : Type} (lines : List Text.Line) : Stmt ι → List Declaration
  | .var name _ => [.ofToken lines .var "" name]
  | .function name parameters body =>
    .ofToken lines .function (signature name parameters) name
      :: parameters.map (.ofToken lines .parameter "") ++ declarationsInAll lines body
  | .block body => declarationsInAll lines body
  | .branch _ yes no => declarations lines yes ++ declarationsInOption lines no
  | .loop _ body => declarations lines body
  | .expression _ | .print _ | .giveBack _ _ | .alien _ => []

def declarationsInOption {ι : Type} (lines : List Text.Line) :
    Option (Stmt ι) → List Declaration
  | none => []
  | some s => declarations lines s

def declarationsInAll {ι : Type} (lines : List Text.Line) : List (Stmt ι) → List Declaration
  | [] => []
  | s :: rest => declarations lines s ++ declarationsInAll lines rest
end

mutual
/-- How many levels it takes to go through the declarations in a statement, below the level of the
statement. A declaration itself takes three. -/
def declarationLevels {ι : Type} : Stmt ι → Nat
  | .var _ _ => 3
  | .function _ _ body => max 3 (1 + declarationLevelsInAll body)
  | .block body => 1 + declarationLevelsInAll body
  | .branch _ yes no => 1 + max (declarationLevels yes) (declarationLevelsInOption no)
  | .loop _ body => 1 + declarationLevels body
  | .expression _ | .print _ | .giveBack _ _ | .alien _ => 0

def declarationLevelsInOption {ι : Type} : Option (Stmt ι) → Nat
  | none => 0
  | some s => declarationLevels s

def declarationLevelsInAll {ι : Type} : List (Stmt ι) → Nat
  | [] => 0
  | s :: rest => max (declarationLevels s) (declarationLevelsInAll rest)
end

/-! ## The index of a text -/

structure Index where
  declarations : List Declaration
  errors : List StaticError

/-- The errors that running a text would report before it starts. Scopes are looked at only
where the text could be read. -/
def staticErrors (reading : Reading) : List StaticError :=
  if reading.errors.isEmpty then
    let (statements, _) := (Stmt.labelAll reading.statements).run 0
    (resolve walkLimit ∅ statements).1.errors.toList
  else reading.errors

/-- The index of a text that was read. -/
def Index.ofReading (text : String) (reading : Reading) : Index :=
  ⟨declarationsInAll (Text.lines text) reading.statements, staticErrors reading⟩

/-- The index of a text, unless its statements nest too deeply to look for declarations. -/
def Index.ofText? (text : String) : Option Index :=
  let reading := read nestingLimit text
  if declarationLevelsInAll reading.statements ≤ walkLimit then some (.ofReading text reading)
  else none

/-- The first declaration of each name. -/
def firstOfEach : List Declaration → List Declaration
  | [] => []
  | d :: rest => d :: (firstOfEach rest).filter (·.name ≠ d.name)

/-- The declared names with their first declarations, in order. -/
def Index.symbols (i : Index) : List Declaration := firstOfEach i.declarations

/-! ## Hover texts -/

/-- A declared name as an editor shows it. -/
def Declaration.label (d : Declaration) : String := if d.detail.isEmpty then d.name else d.detail

/-- What a declaration is and where it stands, with line and column counted from 1. -/
def Declaration.describe (d : Declaration) : String :=
  d.label ++ " — " ++ d.kind.text ++ " (defined at " ++ toString (d.line + 1) ++ ":"
    ++ toString (d.column + 1) ++ ")"

/-- What is known about a word: natives first, then keywords, then what the text declares. -/
def Index.describe (i : Index) (word : String) : Option String :=
  match Native.signatures.lookup word with
  | some text => some text
  | none =>
    match Keyword.ofText? word with
    | some k => some (k.word ++ " (keyword)")
    | none => (i.symbols.find? (·.name == word)).map Declaration.describe

end Scriptling.Editor
