-- Frames hold the variables of a running program. Every block and every call gets a frame of its
-- own; a chain lists the frames that a piece of code sees, the innermost first. Frames are
-- shared: two chains with a frame in common see each other's changes to it.
import Scriptling.Bindings
import Scriptling.Fault
import Scriptling.Value.Operator

namespace Scriptling

/-- The variables of one block or call. -/
abbrev Frame := Bindings Value

abbrev FrameId := Nat

/-- The frames that a piece of code sees, the innermost first. -/
abbrev Chain := List FrameId

/-- All frames made so far. Frame 0 holds the globals. -/
structure Heap where
  frames : Array Frame

/-- The chain of code outside all blocks and functions. -/
def globalChain : Chain := [0]

namespace Heap

/-- A heap with no global bound. -/
def start : Heap := ⟨#[.empty]⟩

/-- The frame with a given number, empty where there is none. -/
def frame (h : Heap) (i : FrameId) : Frame := h.frames[i]?.getD .empty

/-- The number that the next new frame gets. -/
def next (h : Heap) : FrameId := h.frames.size

/-- Add a frame with nothing in it. -/
def grow (h : Heap) : Heap := ⟨h.frames.push .empty⟩

/-- Bind a name in one frame. -/
def put (h : Heap) (i : FrameId) (name : String) (value : Value) : Heap :=
  ⟨h.frames.modify i (·.put name value)⟩

/-- Bind a name in the innermost frame of a chain. -/
def define (h : Heap) (chain : Chain) (name : String) (value : Value) : Heap :=
  match chain with
  | [] => h
  | i :: _ => h.put i name value

/-! ## Access by search -/

/-- The innermost frame of the chain that binds a name. -/
def holder? (h : Heap) (chain : Chain) (name : String) : Option FrameId :=
  chain.find? fun i => (h.frame i).binds name

/-- What a name stands for in the innermost frame that binds it. -/
def get? (h : Heap) (chain : Chain) (name : String) : Option Value :=
  chain.findSome? fun i => (h.frame i).get? name

/-! ## Access by distance -/

/-- What a name stands for in the frame `distance` steps out. -/
def getAt (h : Heap) (chain : Chain) (distance : Nat) (name : String) : Except Fault Value :=
  match chain[distance]? with
  | none => .error .noSuchFrame
  | some i =>
    match (h.frame i).get? name with
    | none => .error (.unboundLocal name)
    | some v => .ok v

/-! ## Display -/

/-- The variables of one frame, in the order in which they were defined. -/
def frameText (h : Heap) (i : FrameId) : String :=
  "\x7b" ++ ", ".intercalate ((h.frame i).entries.map fun (name, v) => name ++ ": " ++ v.display)
    ++ "\x7d"

/-- The innermost frame of a chain, marked if there are more. -/
def chainHead (h : Heap) (chain : Chain) : String :=
  match chain with
  | [] => ""
  | [i] => h.frameText i
  | i :: _ => h.frameText i ++ " -> ..."

/-- All frames of a chain. -/
def chainText (h : Heap) (chain : Chain) : String :=
  "<Environment chain: " ++ " -> ".intercalate (chain.map h.frameText) ++ ">"

end Heap

end Scriptling
