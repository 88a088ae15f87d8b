-- A source text is a row of pieces: line ends, blanks, comments, tokens, and what cannot be
-- read. `pieces` cuts a text from the left, each piece as long as its kind allows, and
-- the pieces put together give the text back.
import Scriptling.Token

namespace Scriptling

/-! ## Character classes -/

/-- Blanks separate tokens and mean nothing else. A line end is not a blank. -/
def isBlank (c : Char) : Bool := c == ' ' || c == '\r' || c == '\t'

/-- Names start with an ASCII letter or an underscore. -/
def startsWord (c : Char) : Bool := c.isAlpha || c == '_'

def continuesWord (c : Char) : Bool := c.isAlphanum || c == '_'

/-- The operator that one character spells. -/
def operator? : Char → Option Kind
  | '(' => some .leftParen
  | ')' => some .rightParen
  | '{' => some .leftBrace
  | '}' => some .rightBrace
  | ',' => some .comma
  | '.' => some .dot
  | '-' => some .minus
  | '+' => some .plus
  | ';' => some .semicolon
  | '/' => some .slash
  | '*' => some .star
  | '!' => some .bang
  | '=' => some .equal
  | '>' => some .greater
  | '<' => some .less
  | _ => none

/-- The operator that a character spells together with an equals sign after it. -/
def operatorWithEqual? : Char → Option Kind
  | '!' => some .bangEqual
  | '=' => some .equalEqual
  | '>' => some .greaterEqual
  | '<' => some .lessEqual
  | _ => none

/-! ## Pieces -/

inductive Piece
  | newline
  | blanks (text : List Char)
  /-- A comment: a hash sign, then `body` up to the end of the line. -/
  | comment (body : List Char)
  /-- A string: `body` between two quotes. It may span lines. -/
  | quoted (body : List Char)
  /-- A quote that no other quote follows, and all of the text after it. -/
  | unclosed (body : List Char)
  /-- A number. An empty `fraction` means that there is no point. -/
  | number (whole fraction : List Char)
  | word (text : List Char)
  | operator (text : List Char) (kind : Kind)
  /-- A character that starts no piece of another kind. -/
  | stray (c : Char)
  deriving DecidableEq, Repr

namespace Piece

/-- The characters of a piece. -/
def text : Piece → List Char
  | newline => ['\n']
  | blanks text => text
  | comment body => '#' :: body
  | quoted body => '"' :: body ++ ['"']
  | unclosed body => '"' :: body
  | number whole [] => whole
  | number whole fraction => whole ++ '.' :: fraction
  | word text => text
  | operator text _ => text
  | stray c => [c]

/-- A string if a closing quote is found, else an unclosed piece to the end. -/
def scanString (rest : List Char) : Piece × List Char :=
  match rest.dropWhile (· ≠ '"') with
  | [] => (unclosed rest, [])
  | _ :: after => (quoted (rest.takeWhile (· ≠ '"')), after)

/-- Digits, then a point and more digits if at least one digit follows the point. -/
def scanNumber (text : List Char) : Piece × List Char :=
  let whole := text.takeWhile Char.isDigit
  let rest := text.dropWhile Char.isDigit
  match rest with
  | '.' :: after =>
    match after.takeWhile Char.isDigit with
    | [] => (number whole [], rest)
    | fraction => (number whole fraction, after.dropWhile Char.isDigit)
  | _ => (number whole [], rest)

/-- Two characters where they spell an operator, else one. -/
def scanOperator (c : Char) (rest : List Char) : Piece × List Char :=
  match operatorWithEqual? c, rest with
  | some kind, '=' :: after => (operator [c, '='] kind, after)
  | _, _ =>
    match operator? c with
    | some kind => (operator [c] kind, rest)
    | none => (stray c, rest)

/-- The first piece of the text `c :: rest`, and what follows it. -/
def scan (c : Char) (rest : List Char) : Piece × List Char :=
  if c = '\n' then (newline, rest)
  else if isBlank c then (blanks (c :: rest.takeWhile isBlank), rest.dropWhile isBlank)
  else if c = '#' then (comment (rest.takeWhile (· ≠ '\n')), rest.dropWhile (· ≠ '\n'))
  else if c = '"' then scanString rest
  else if c.isDigit then scanNumber (c :: rest)
  else if startsWord c then
    (word (c :: rest.takeWhile continuesWord), rest.dropWhile continuesWord)
  else scanOperator c rest

/-! ## A scan loses nothing -/

theorem scanString_text (rest : List Char) :
    (scanString rest).1.text ++ (scanString rest).2 = '"' :: rest := by
  unfold scanString
  split
  next => simp [text]
  next q after h =>
    have hq : q = '"' := by
      have := List.head?_dropWhile_not (· ≠ '"') rest
      rw [h] at this
      simpa using this
    have := List.takeWhile_append_dropWhile (p := (· ≠ '"')) (l := rest)
    rw [h, hq] at this
    simpa [text] using this

theorem scanNumber_text (cs : List Char) :
    (scanNumber cs).1.text ++ (scanNumber cs).2 = cs := by
  have hcs := List.takeWhile_append_dropWhile (p := Char.isDigit) (l := cs)
  unfold scanNumber
  dsimp only
  split
  next after h =>
    have hafter := List.takeWhile_append_dropWhile (p := Char.isDigit) (l := after)
    split
    next => simp [text]
    next hne =>
      rw [h] at hcs
      cases hf : after.takeWhile Char.isDigit with
      | nil => exact absurd hf hne
      | cons d ds =>
        calc text (number (cs.takeWhile Char.isDigit) (d :: ds)) ++ after.dropWhile Char.isDigit
            = cs.takeWhile Char.isDigit ++ '.' :: ((d :: ds) ++ after.dropWhile Char.isDigit) := by
              simp [text]
          _ = cs := by rw [← hf, hafter, hcs]
  next => simp [text]

theorem scanOperator_text (c : Char) (rest : List Char) :
    (scanOperator c rest).1.text ++ (scanOperator c rest).2 = c :: rest := by
  unfold scanOperator
  split
  · simp [text]
  · split <;> simp [text]

theorem scan_text (c : Char) (rest : List Char) :
    (scan c rest).1.text ++ (scan c rest).2 = c :: rest := by
  unfold scan
  split
  next h => simp [text, h]
  split
  next => simp [text]
  split
  next h => simp [text, h]
  split
  next h => rw [h]; exact scanString_text rest
  split
  next => exact scanNumber_text _
  split
  next => simp [text]
  next => exact scanOperator_text c rest

theorem scanNumber_text_pos {c : Char} {rest : List Char} (h : c.isDigit = true) :
    (scanNumber (c :: rest)).1.text ≠ [] := by
  unfold scanNumber
  simp only [List.takeWhile_cons, h, if_true]
  split
  · split <;> simp [text]
  · simp [text]

/-- No piece is empty. -/
theorem scan_text_ne_nil (c : Char) (rest : List Char) : (scan c rest).1.text ≠ [] := by
  unfold scan
  split
  next => simp [text]
  split
  next => simp [text]
  split
  next => simp [text]
  split
  next => unfold scanString; split <;> simp [text]
  split
  next h => exact scanNumber_text_pos h
  split
  next => simp [text]
  next =>
    unfold scanOperator
    split
    · simp [text]
    · split <;> simp [text]

theorem scan_rest_length (c : Char) (rest : List Char) :
    (scan c rest).2.length ≤ rest.length := by
  have h := congrArg List.length (scan_text c rest)
  have hne := List.length_pos_iff.2 (scan_text_ne_nil c rest)
  simp only [List.length_append, List.length_cons] at h
  omega

end Piece

/-- Cut a text into pieces, from left to right. -/
def pieces : List Char → List Piece
  | [] => []
  | c :: rest =>
    let first := Piece.scan c rest
    first.1 :: pieces first.2
  termination_by text => text.length
  decreasing_by
    have := Piece.scan_rest_length c rest
    simp only [List.length_cons]
    omega

/-- The pieces of a text, put together, are the text. -/
theorem text_pieces (cs : List Char) : (pieces cs).flatMap Piece.text = cs := by
  fun_induction pieces cs with
  | case1 => rfl
  | case2 c rest first ih => rw [List.flatMap_cons, ih, Piece.scan_text]

end Scriptling
