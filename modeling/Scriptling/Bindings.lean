-- Bindings: what names stand for, in the order in which the names were first bound.

namespace Scriptling

/-- Names with what they are bound to. A name keeps the place it got when first bound. -/
structure Bindings (β : Type) where
  entries : List (String × β)
  deriving Repr

namespace Bindings

variable {β : Type}

/-- No name bound. -/
def empty : Bindings β := ⟨[]⟩

def names (b : Bindings β) : List String := b.entries.map Prod.fst

/-- What a name is bound to. -/
def get? (b : Bindings β) (name : String) : Option β := b.entries.lookup name

def binds (b : Bindings β) (name : String) : Bool := (b.get? name).isSome

/-- Change the entry of a name in place, or add one at the end. -/
def putIn (name : String) (value : β) : List (String × β) → List (String × β)
  | [] => [(name, value)]
  | entry :: rest =>
    if entry.1 = name then (name, value) :: rest else entry :: putIn name value rest

/-- Bind a name, in its old place if it has one. -/
def put (b : Bindings β) (name : String) (value : β) : Bindings β := ⟨putIn name value b.entries⟩

/-- Drop a name. -/
def erase (b : Bindings β) (name : String) : Bindings β :=
  ⟨b.entries.filter fun entry => entry.1 ≠ name⟩

/-! ## What binding a name changes -/

theorem lookup_putIn_self (name : String) (value : β) (entries : List (String × β)) :
    (putIn name value entries).lookup name = some value := by
  induction entries with
  | nil => simp [putIn]
  | cons entry rest ih =>
    obtain ⟨key, old⟩ := entry
    by_cases h : key = name
    · simp [putIn, h]
    · simp [putIn, h, List.lookup_cons, beq_false_of_ne (Ne.symm h), ih]

theorem lookup_putIn_of_ne {name other : String} (h : other ≠ name) (value : β)
    (entries : List (String × β)) :
    (putIn name value entries).lookup other = entries.lookup other := by
  induction entries with
  | nil => simp [putIn, List.lookup_cons, beq_false_of_ne h]
  | cons entry rest ih =>
    obtain ⟨key, old⟩ := entry
    by_cases hk : key = name
    · simp [putIn, hk, List.lookup_cons, beq_false_of_ne h]
    · simp [putIn, hk, List.lookup_cons, ih]

@[simp] theorem get?_put_self (b : Bindings β) (name : String) (value : β) :
    (b.put name value).get? name = some value := lookup_putIn_self name value b.entries

theorem get?_put_of_ne (b : Bindings β) {name other : String} (h : other ≠ name) (value : β) :
    (b.put name value).get? other = b.get? other := lookup_putIn_of_ne h value b.entries

theorem binds_put (b : Bindings β) (name other : String) (value : β) :
    (b.put name value).binds other = (decide (other = name) || b.binds other) := by
  by_cases h : other = name
  · subst h
    simp [binds]
  · simp [binds, b.get?_put_of_ne h, h]

/-! ## What dropping a name changes -/

@[simp] theorem get?_erase_self (b : Bindings β) (name : String) :
    (b.erase name).get? name = none := by
  unfold get? erase
  rw [List.lookup_eq_none_iff]
  intro entry hentry
  have hne := (List.mem_filter.1 hentry).2
  simp only [ne_eq, decide_not, Bool.not_eq_true', decide_eq_false_iff_not] at hne
  exact bne_iff_ne.2 (Ne.symm hne)

theorem get?_erase_of_ne (b : Bindings β) {name other : String} (h : other ≠ name) :
    (b.erase name).get? other = b.get? other := by
  unfold get? erase
  induction b.entries with
  | nil => rfl
  | cons entry rest ih =>
    obtain ⟨key, value⟩ := entry
    by_cases hk : key = name
    · subst hk
      simpa [List.lookup_cons, beq_false_of_ne h] using ih
    · simp only [List.filter_cons, hk, ne_eq, not_false_eq_true, decide_true, if_true,
        List.lookup_cons, ih]

end Bindings

end Scriptling
