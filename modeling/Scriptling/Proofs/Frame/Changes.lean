-- What a change to the frames changes. A frame that is written gets one binding, in the place that
-- its name has already or at the end; all other frames and all other names stay as they are.
import Scriptling.Frame

namespace Scriptling

/-! ## Names in their order -/

/-- A name is added at the end, unless it is there. -/
def withName (names : List String) (name : String) : List String :=
  if name ∈ names then names else names ++ [name]

theorem withName_of_mem {names : List String} {name : String} (h : name ∈ names) :
    withName names name = names := if_pos h

namespace Bindings

variable {β : Type}

theorem mem_names_of_binds {b : Bindings β} {name : String} (h : b.binds name = true) :
    name ∈ b.names := by
  obtain ⟨value, hvalue⟩ := Option.isSome_iff_exists.1 h
  obtain ⟨before, after, hentries, -⟩ := List.lookup_eq_some_iff.1 hvalue
  simp [names, hentries]

theorem names_putIn (name : String) (value : β) (entries : List (String × β)) :
    (putIn name value entries).map Prod.fst = withName (entries.map Prod.fst) name := by
  unfold withName
  induction entries with
  | nil => rfl
  | cons entry rest ih =>
    rw [putIn]
    by_cases h : entry.1 = name
    · simp [h]
    · simp only [h, if_false, List.map_cons, ih, List.mem_cons, Ne.symm h, false_or]
      split <;> rfl

/-- A name that is bound already keeps its place. -/
theorem names_put (b : Bindings β) (name : String) (value : β) :
    (b.put name value).names = withName b.names name := names_putIn name value b.entries

end Bindings

/-! ## Frames -/

namespace Heap

@[simp] theorem frame_grow (h : Heap) (i : FrameId) : h.grow.frame i = h.frame i := by
  unfold Heap.frame Heap.grow
  simp only [Array.getElem?_push]
  split
  · rename_i heq
    simp [heq]
  · rfl

@[simp] theorem next_grow (h : Heap) : h.grow.next = h.next + 1 := by
  simp [Heap.next, Heap.grow]

@[simp] theorem next_put (h : Heap) (i : FrameId) (name : String) (v : Value) :
    (h.put i name v).next = h.next := by
  simp [Heap.next, Heap.put]

theorem frame_put_self {h : Heap} {i : FrameId} (hi : i < h.next) (name : String) (v : Value) :
    (h.put i name v).frame i = (h.frame i).put name v := by
  unfold Heap.frame Heap.put
  have hget : h.frames[i]? = some h.frames[i] := Array.getElem?_eq_getElem hi
  simp [Array.getElem?_modify, hget]

theorem frame_put_of_ne {h : Heap} {i j : FrameId} (hne : j ≠ i) (name : String) (v : Value) :
    (h.put i name v).frame j = h.frame j := by
  unfold Heap.frame Heap.put
  simp [Array.getElem?_modify, Ne.symm hne]

/-- Binding a name unbinds none. -/
theorem binds_put {h : Heap} {i j : FrameId} (hi : i < h.next) {name other : String} (v : Value)
    (hbinds : (h.frame j).binds other = true) : ((h.put i name v).frame j).binds other = true := by
  by_cases hj : j = i
  · subst hj
    rw [frame_put_self hi, Bindings.binds_put, hbinds, Bool.or_true]
  · rw [frame_put_of_ne hj]
    exact hbinds

/-- A variable is the one that was written, or it is as it was. -/
theorem get?_put_cases {h : Heap} {i j : FrameId} (hi : i < h.next) {name other : String}
    {v u : Value} (hu : ((h.put i name v).frame j).get? other = some u) :
    (j = i ∧ other = name ∧ u = v) ∨
      ¬ (j = i ∧ other = name) ∧ (h.frame j).get? other = some u := by
  by_cases hj : j = i
  · subst hj
    rw [frame_put_self hi] at hu
    by_cases hname : other = name
    · subst hname
      rw [Bindings.get?_put_self] at hu
      cases hu
      exact Or.inl ⟨rfl, rfl, rfl⟩
    · rw [Bindings.get?_put_of_ne _ hname] at hu
      exact Or.inr ⟨fun heq => hname heq.2, hu⟩
  · rw [frame_put_of_ne hj] at hu
    exact Or.inr ⟨fun heq => hj heq.1, hu⟩

end Heap

end Scriptling
