-- A source read as tokens. One counter of lines runs through the pieces, and each piece is placed
-- on the line that the counter shows behind it; words, numbers, strings and operators become
-- tokens, and what cannot be read becomes an error.
import Scriptling.Number.Layout
import Scriptling.Report
import Scriptling.Source.Piece

namespace Scriptling

/-! ## From a piece to a token -/

namespace Piece

/-- The counter of lines behind a piece, where it shows `line` before it. A line end moves it, and
so does a string, closed or not, by the line ends that it holds. Nothing else does. -/
def lineBehind (line : Int) : Piece → Int
  | newline => line + 1
  | quoted body => line + (quoted body).text.count '\n'
  | unclosed body => line + (unclosed body).text.count '\n'
  | blanks _ | comment _ | number .. | word _ | operator .. | stray _ => line

/-- The token that a piece ending on `line` stands for. -/
def token? (p : Piece) (line : Int) : Option Token :=
  let lexeme := String.ofList p.text
  match p with
  | quoted body => some ⟨.string, lexeme, some (.text (String.ofList body)), line⟩
  | number whole fraction =>
    some ⟨.number, lexeme, some (.number (Number.ofDecimal whole fraction)), line⟩
  | word _ =>
    match Keyword.ofText? lexeme with
    | some k => some ⟨.keyword k, lexeme, none, line⟩
    | none => some ⟨.identifier, lexeme, none, line⟩
  | operator _ kind => some ⟨kind, lexeme, none, line⟩
  | newline | blanks _ | comment _ | unclosed _ | stray _ => none

/-- The error that a piece ending on `line` is. -/
def error? (p : Piece) (line : Int) : Option StaticError :=
  match p with
  | unclosed _ => some ⟨line, .nowhere, .unterminatedString⟩
  | stray _ => some ⟨line, .nowhere, .unexpectedCharacter⟩
  | _ => none

end Piece

/-- Go through pieces with the counter of lines, which shows `line` before them: each piece with the
line behind it, and the last line that the counter shows. -/
def placed (line : Int) : List Piece → List (Piece × Int) × Int
  | [] => ([], line)
  | p :: rest =>
    let behind := p.lineBehind line
    let after := placed behind rest
    ((p, behind) :: after.1, after.2)

theorem placed_cons (line : Int) (p : Piece) (rest : List Piece) :
    placed line (p :: rest) =
      ((p, p.lineBehind line) :: (placed (p.lineBehind line) rest).1,
        (placed (p.lineBehind line) rest).2) := rfl

/-! ## Reading a source -/

/-- A source as tokens, without a mark at the end, and the errors met on the way. -/
structure Lexed where
  tokens : List Token
  errors : List StaticError
  /-- The line on which the source ends. -/
  endLine : Int

/-- Read a source. Reading never fails: errors are listed beside the tokens. -/
def lex (source : String) : Lexed :=
  let read := placed 1 (pieces source.toList)
  { tokens := read.1.filterMap fun (p, line) => p.token? line
    errors := read.1.filterMap fun (p, line) => p.error? line
    endLine := read.2 }

/-- All tokens, the mark at the end included. -/
def Lexed.withEnd (l : Lexed) : List Token := l.tokens ++ [Token.endAt l.endLine]

/-! ## Listings -/

/-- The value of a token as a listing shows it. -/
def Literal.listing : Literal → String
  | .number x => Number.Layout.listing.write x
  | .text s => s

/-- A token as a listing shows it: kind, text and value. -/
def Token.listing (t : Token) : String :=
  t.kind.name ++ " " ++ t.lexeme ++ " " ++ (t.literal.elim "None" Literal.listing)

/-- The tokens of a source, listed. -/
def Lexed.listing (l : Lexed) : List String := l.withEnd.map Token.listing

end Scriptling
