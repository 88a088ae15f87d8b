-- The documents open in an editor. Each keeps its text and the index of that text; after every
-- change the errors of the text are published.
import Scriptling.Bindings
import Scriptling.Editor.Edit
import Scriptling.Editor.Index
import Scriptling.Text.Alphanumeric

namespace Scriptling.Editor

structure Document where
  text : String
  index : Index

/-- The open documents by address, in the order in which they were opened. -/
abbrev Documents := Bindings Document

/-! ## Diagnostics -/

/-- A part of a text, up to but without its last place. -/
structure Range where
  start : Position
  stop : Position
  deriving DecidableEq, Repr

structure Diagnostic where
  range : Range
  message : String
  deriving DecidableEq, Repr

/-- The name under which diagnostics are published. -/
def Diagnostic.source : String := "itl-ls"

/-- All of a line, counted from 0. A line that is not there has no width. -/
def lineRange (lines : List Text.Line) (line : Nat) : Range :=
  ⟨⟨line, 0⟩, ⟨line, (lines[line]?.map (·.body.length)).getD 0⟩⟩

def Diagnostic.ofError (lines : List Text.Line) (e : StaticError) : Diagnostic :=
  ⟨lineRange lines (fromZero e.line), "Error" ++ e.place.text ++ ": " ++ e.problem.message⟩

/-- The errors of a text as an editor shows them. -/
def diagnostics (text : String) (index : Index) : List Diagnostic :=
  index.errors.map (.ofError (Text.lines text))

/-! ## Events -/

/-- What happens to a document. -/
inductive Event
  | opened (text : String)
  | changed (changes : List Change)
  | closed
  deriving Repr

/-- A text with its index, unless the text has none. -/
def Document.ofText? (text : String) : Option Document := (Index.ofText? text).map (⟨text, ·⟩)

namespace Documents

/-- The documents with a new text at an address, and the diagnostics to publish. -/
def update? (ds : Documents) (address : String) (text : String) :
    Option (Documents × List Diagnostic) :=
  (Document.ofText? text).map fun d => (ds.put address d, diagnostics text d.index)

/-- The documents after an event, and the diagnostics to publish. A document that is not open
is changed from the empty text. A text without an index is refused. -/
def handle? (ds : Documents) (address : String) (e : Event) (E : Editing := .standard) :
    Option (Documents × List Diagnostic) :=
  match e with
  | .opened text => ds.update? address text
  | .changed changes =>
    ds.update? address (E.applyAll changes ((ds.get? address).elim "" (·.text)))
  | .closed => some (ds.erase address, [])

end Documents

/-! ## Words and hover -/

/-- A position lies past the end of its line. -/
inductive WordError
  | pastLineEnd
  deriving DecidableEq, Repr

/-- The word around a position, its end included, and where it starts. A position below the last
line has no word. -/
def wordAt (text : String) (p : Position) : Except WordError (Option String × Nat) :=
  match (Text.lines text)[p.line]? with
  | none => .ok (none, p.character)
  | some l =>
    let cs := l.full
    if cs.length < p.character then .error .pastLineEnd
    else
      let before := (cs.take p.character).reverse.takeWhile Text.inWord
      let after := (cs.drop p.character).takeWhile Text.inWord
      let word := before.reverse ++ after
      .ok (if word.isEmpty then none else some (String.ofList word),
        p.character - before.length)

/-- What is known about the word at a position. -/
def Document.hover (d : Document) (p : Position) : Except WordError (Option String) := do
  let (word, _) ← wordAt d.text p
  return word.bind d.index.describe

/-! ## Completion and symbols -/

/-- How an editor marks a name. -/
inductive Mark
  | keyword
  | function
  | variable
  deriving DecidableEq, Repr

def Declaration.mark (d : Declaration) : Mark :=
  if d.kind = .function then .function else .variable

def Declaration.detail? (d : Declaration) : Option String :=
  if d.detail.isEmpty then none else some d.detail

structure Completion where
  label : String
  mark : Mark
  detail? : Option String
  deriving DecidableEq, Repr

/-- What may be typed: the keywords, the natives, and the names that the text declares. -/
def completions (index : Option Index) : List Completion :=
  Keyword.all.map (fun k => ⟨k.word, .keyword, none⟩)
    ++ Native.signatures.map (fun (name, text) => ⟨name, .function, some text⟩)
    ++ (index.elim [] Index.symbols).map fun d => ⟨d.name, d.mark, d.detail?⟩

structure Symbol where
  name : String
  mark : Mark
  detail? : Option String
  range : Range
  deriving DecidableEq, Repr

def Symbol.ofDeclaration (d : Declaration) : Symbol :=
  ⟨d.name, d.mark, d.detail?, ⟨⟨d.line, d.column⟩, ⟨d.line, d.column + d.name.length⟩⟩⟩

/-- The outline of a text: all that it declares but parameters. -/
def Index.outline (i : Index) : List Symbol :=
  (i.declarations.filter (·.kind ≠ .parameter)).map .ofDeclaration

end Scriptling.Editor
