-- Texts as lines. An editor ends a line at more characters than the language does, and it counts
-- places on a line in units of UTF-16.

namespace Scriptling.Text

/-! ## Lines -/

/-- A line without its end, and the characters that end it. Only the last line of a text can
lack an end. -/
structure Line where
  body : List Char
  ending : List Char
  deriving DecidableEq, Repr

/-- The whole line. -/
def Line.full (l : Line) : List Char := l.body ++ l.ending

/-- Line feed, vertical tab, form feed, carriage return, the separators of files, groups and
records, next line, and the two separators of lines and paragraphs. -/
def endsLine (c : Char) : Bool :=
  [0x0a, 0x0b, 0x0c, 0x0d, 0x1c, 0x1d, 0x1e, 0x85, 0x2028, 0x2029].contains c.toNat

/-- The lines of a text, where `start` holds the characters of the first line before it, the
latest first. A carriage return and a line feed together end one line. -/
def linesFrom (start : List Char) : List Char → List Line
  | [] => if start.isEmpty then [] else [⟨start.reverse, []⟩]
  | '\r' :: '\n' :: rest => ⟨start.reverse, ['\r', '\n']⟩ :: linesFrom [] rest
  | c :: rest =>
    if endsLine c then ⟨start.reverse, [c]⟩ :: linesFrom [] rest else linesFrom (c :: start) rest

def lines (text : String) : List Line := linesFrom [] text.toList

/-! ## Units of UTF-16 -/

/-- How many units of UTF-16 a character takes. -/
def units (c : Char) : Nat := if c.toNat < 0x10000 then 1 else 2

def unitLength (cs : List Char) : Nat := cs.foldl (fun n c => n + units c) 0

/-- How many characters have to be passed until at least `n` units are passed. -/
def charactersOf (n : Nat) : List Char → Nat
  | [] => 0
  | c :: rest => if n = 0 then 0 else 1 + charactersOf (n - units c) rest

/-! ## Search -/

/-- Where `part` first occurs in a text. -/
def indexOf? (part : List Char) : List Char → Option Nat
  | [] => if part.isEmpty then some 0 else none
  | c :: rest =>
    if part.isPrefixOf (c :: rest) then some 0 else (indexOf? part rest).map (· + 1)

end Scriptling.Text
