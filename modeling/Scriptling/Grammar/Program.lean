-- Programs: declarations up to the end of a source. Reading a source always gives a program,
-- perhaps with some of its statements left out, and the list of what is wrong with it.
import Scriptling.Grammar.Statement
import Scriptling.Source.Lexed

namespace Scriptling

namespace Parser

/-! ## The top level -/

/-- A declaration at the top level. One that nests too deeply is dropped with a complaint. -/
def topLevel (size budget : Nat) : Parser (Option RawStmt) := fun tokens =>
  match declaration size budget tokens with
  | ⟨.error _, rest, complaints⟩ =>
    ⟨.ok none, synchronize rest, complaints ++ [⟨rest.head?, .tooDeep⟩]⟩
  | ⟨.ok s, rest, complaints⟩ => ⟨.ok s, rest, complaints⟩

/-- Declarations up to the end of the source. Those that could not be read are left out. -/
def program (size budget : Nat) : Parser (List RawStmt) := do
  let statements ← many (do
    match ← peek? with
    | none => return none
    | some _ => some <$> topLevel size budget) size
  return statements.reduceOption

end Parser

/-! ## Reading a program -/

/-- How deeply the text of a program may nest, in steps of the recursive descent. -/
def nestingLimit : Nat := 990

/-- How deeply a walk over a program may nest, in steps from a statement or an expression to what
it holds. The descent takes five more before it comes to a token. -/
def walkLimit : Nat := nestingLimit + 5

/-- A program as read: its statements, and what was complained about. -/
structure Program where
  statements : List RawStmt
  complaints : List Complaint

/-- Read tokens as a program. Reading never fails: statements that could not be read are
dropped, and each of them is complained about. -/
def parse (limit : Nat) (tokens : List Token) : Program :=
  let parsed := Parser.program tokens.length limit tokens
  ⟨parsed.outcome.toOption.getD [], parsed.complaints⟩

/-- A source read as far as it can be read, with all errors met. -/
structure Reading where
  statements : List RawStmt
  errors : List StaticError

/-- Read a source as a program: the errors in its characters come first, then those in its
grammar. -/
def read (limit : Nat) (source : String) : Reading :=
  let lexed := lex source
  let program := parse limit lexed.tokens
  ⟨program.statements, lexed.errors ++ program.complaints.map (·.error lexed.endLine)⟩

end Scriptling
