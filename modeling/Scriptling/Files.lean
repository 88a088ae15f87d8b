-- Files and directories as a program sees them at its start: a snapshot from which paths are
-- looked up and texts are read.
import Scriptling.Text.Quoted

namespace Scriptling

/-! ## Paths -/

/-- Where a path starts. -/
inductive Anchor
  /-- The current directory. -/
  | here
  | root
  /-- The root, written with two slashes. -/
  | doubleRoot
  deriving DecidableEq, Repr

namespace Anchor

/-- The anchor of a path from its text. Two slashes at the front stay two; any other number of
them counts as one. -/
def ofChars : List Char → Anchor
  | '/' :: '/' :: '/' :: _ => root
  | '/' :: '/' :: _ => doubleRoot
  | '/' :: _ => root
  | _ => here

def text : Anchor → String
  | here => ""
  | root => "/"
  | doubleRoot => "//"

end Anchor

structure Path where
  anchor : Anchor
  parts : List String
  deriving DecidableEq, Repr

namespace Path

/-- A path from its text. Empty parts and single dots say nothing and are dropped; double dots
are kept. -/
def ofText (s : String) : Path :=
  let parts := (s.toList.splitOn '/').map String.ofList
  ⟨.ofChars s.toList, parts.filter fun p => p ≠ "" ∧ p ≠ "."⟩

def text (p : Path) : String :=
  if p.anchor = .here ∧ p.parts.isEmpty then "." else p.anchor.text ++ "/".intercalate p.parts

/-- The path does not depend on the current directory. -/
def isAbsolute (p : Path) : Bool := p.anchor ≠ .here

def child (p : Path) (name : String) : Path := { p with parts := p.parts ++ [name] }

/-- The path without its last part. -/
def parent (p : Path) : Path := { p with parts := p.parts.dropLast }

/-- The home directory. A text of slashes alone, or of nothing, means the root. -/
def ofHome (home : String) : Path :=
  if home.toList.all (· = '/') then ⟨.root, []⟩ else ofText home

/-- Put the home directory in place of a tilde that stands first. -/
def expandHome (home? : Option String) (p : Path) : Path :=
  match p.anchor, p.parts, home? with
  | .here, "~" :: rest, some home =>
    let h := ofHome home
    { h with parts := h.parts ++ rest }
  | _, _, _ => p

end Path

/-! ## Snapshots -/

inductive Entry
  | file (content : ByteArray)
  | directory

/-- The parts of a path from the root, without dots. -/
abbrev Location := List String

/-- What is known of the file system. The root is always a directory. -/
structure Files where
  /-- The current directory. -/
  current : Location
  entries : List (Location × Entry)

/-- Why a file could not be read as text. -/
inductive ReadError
  | notFound
  | isDirectory
  | notDirectory
  | notText
  deriving DecidableEq, Repr

/-- A path that could not be read, and why. -/
structure ReadFailure where
  path : Path
  error : ReadError
  deriving DecidableEq, Repr

/-- The message of a failure, empty for a file that is not text. -/
def ReadFailure.message (f : ReadFailure) : String :=
  match f.error with
  | .notFound => "[Errno 2] No such file or directory: " ++ Text.quoted f.path.text
  | .isDirectory => "[Errno 21] Is a directory: " ++ Text.quoted f.path.text
  | .notDirectory => "[Errno 20] Not a directory: " ++ Text.quoted f.path.text
  | .notText => ""

/-- The directories from the root down to a location, the location included. -/
def Location.down (l : Location) : List Location := (List.range (l.length + 1)).map l.take

namespace Files

/-- Only a current directory, with nothing in it. -/
def start (current : Location) : Files :=
  ⟨current, (Location.down current).map fun l => (l, .directory)⟩

/-- Add what stands at a location, and the directories on the way to it. -/
def add (fs : Files) (location : Location) (entry : Entry) : Files :=
  let above := (Location.down location.dropLast).map fun l => (l, Entry.directory)
  { fs with entries := fs.entries ++ above ++ [(location, entry)] }

def entry? (fs : Files) (location : Location) : Option Entry :=
  if location.isEmpty then some .directory else fs.entries.lookup location

/-- Follow the parts of a path. All but the last have to lead to directories. -/
def walk (fs : Files) (at_ : Location) : List String → Except ReadError Location
  | [] => .ok at_
  | part :: rest =>
    match fs.entry? at_ with
    | some .directory =>
      if part = ".." then fs.walk at_.dropLast rest else fs.walk (at_ ++ [part]) rest
    | some (.file _) => .error .notDirectory
    | none => .error .notFound

/-- What stands at a path. -/
def find (fs : Files) (p : Path) : Except ReadError (Location × Entry) := do
  let location ← fs.walk (if p.isAbsolute then [] else fs.current) p.parts
  match fs.entry? location with
  | some entry => .ok (location, entry)
  | none => .error .notFound

def isDirectory (fs : Files) (p : Path) : Bool :=
  match fs.find p with
  | .ok (_, .directory) => true
  | _ => false

def isFile (fs : Files) (p : Path) : Bool :=
  match fs.find p with
  | .ok (_, .file _) => true
  | _ => false

/-- The names of the files directly inside a directory. -/
def filesIn (fs : Files) (p : Path) : List String :=
  match fs.find p with
  | .ok (location, .directory) =>
    (fs.entries.filterMap fun
      | (l, .file _) => if l.dropLast = location then l.getLast? else none
      | (_, .directory) => none).eraseDups
  | _ => []

/-- A carriage return ends a line, alone or before a line feed; both become a line feed. -/
def plainLineEnds : List Char → List Char
  | [] => []
  | '\r' :: '\n' :: rest => '\n' :: plainLineEnds rest
  | c :: rest => (if c = '\r' then '\n' else c) :: plainLineEnds rest

/-- Read a file as UTF-8. -/
def readText (fs : Files) (p : Path) : Except ReadFailure String :=
  match fs.find p with
  | .error e => .error ⟨p, e⟩
  | .ok (_, .directory) => .error ⟨p, .isDirectory⟩
  | .ok (_, .file content) =>
    match String.fromUTF8? content with
    | some s => .ok (String.ofList (plainLineEnds s.toList))
    | none => .error ⟨p, .notText⟩

end Files

end Scriptling
