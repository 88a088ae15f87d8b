-- Edits: changes that an editor makes to a text. What a change with a range makes of a text is not
-- for this language to say: a function for it is given from outside.
import Scriptling.Text.Line

namespace Scriptling.Editor

/-- A place in a text, counted from 0. -/
structure Position where
  line : Nat
  character : Nat
  deriving DecidableEq, Repr

inductive Change
  /-- Put a new text in place of all of it. -/
  | whole (text : String)
  /-- Put a new text in place of what stands from `start` up to `stop`. -/
  | ranged (start stop : Position) (text : String)
  deriving DecidableEq, Repr

/-! ## What changes make of a text -/

/-- A way to edit: what a change makes of a text. Only of a change without a range is it known. -/
structure Editing where
  apply : Change → String → String
  apply_whole : ∀ new text, apply (.whole new) text = new

namespace Editing

/-- Make changes in turn. -/
def applyAll (E : Editing) (changes : List Change) (text : String) : String :=
  changes.foldl (fun text c => E.apply c text) text

theorem applyAll_append (E : Editing) (changes more : List Change) (text : String) :
    E.applyAll (changes ++ more) text = E.applyAll more (E.applyAll changes text) :=
  List.foldl_append

/-- What stood there before a change without a range has no say in what comes of it. -/
theorem applyAll_whole (E : Editing) (before : List Change) (new : String) (after : List Change)
    (text : String) : E.applyAll (before ++ .whole new :: after) text = E.applyAll after new := by
  rw [applyAll_append]
  show E.applyAll after (E.apply (.whole new) (E.applyAll before text)) = E.applyAll after new
  rw [E.apply_whole]

end Editing

/-! ## Editing by units

The way to edit that the program runs with: a range names its places by line and by units of UTF-16
on the line. -/

/-- A line as an editor measures it: a carriage return and a line feed count as one. -/
def measured (l : Text.Line) : List Char :=
  if l.ending = ['\r', '\n'] then l.body ++ ['\n'] else l.full

/-- A position counted in units as one counted in characters. A line past the end means the end
of the last line; a place past the end of its line means the place before the line's end. -/
def Position.inCharacters (lines : List Text.Line) (p : Position) : Position :=
  match lines.getLast? with
  | none => ⟨0, 0⟩
  | some last =>
    match lines[p.line]? with
    | none => ⟨lines.length - 1, Text.unitLength last.full⟩
    | some l =>
      let cs := measured l
      let width := Text.unitLength cs
      let wanted := if width < p.character then width - 1 else p.character
      ⟨p.line, Text.charactersOf wanted cs⟩

/-- One line after a ranged change: what stands before the range, the new text, and what stands
after the range, each on the line where it belongs. -/
def editLine (start stop : Position) (new : List Char) (index : Nat) (l : Text.Line) :
    List Char :=
  if index < start.line ∨ stop.line < index then l.full
  else
    (if index = start.line then l.full.take start.character ++ new else [])
      ++ (if index = stop.line then l.full.drop stop.character else [])

/-- A text with a new text in place of a range. -/
def replaceRange (start stop : Position) (new text : String) : String :=
  let lines := Text.lines text
  let start := start.inCharacters lines
  let stop := stop.inCharacters lines
  if start.line = lines.length then text ++ new
  else
    String.ofList ((lines.zipIdx.flatMap fun (l, i) => editLine start stop new.toList i l))

def Editing.standard : Editing where
  apply
    | .whole new, _ => new
    | .ranged start stop new, text => replaceRange start stop new text
  apply_whole _ _ := rfl

end Scriptling.Editor
