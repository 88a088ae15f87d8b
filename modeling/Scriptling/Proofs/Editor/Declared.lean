-- Declarations by their place in a program. `Holds` says where a statement stands inside others,
-- `own` what it declares by itself; the entries of an index are the declarations of all
-- statements, each place once. The symbols keep the first entry of each name.
import Mathlib.Data.List.Nodup
import Scriptling.Editor.Document

namespace Scriptling.Editor

variable {ι : Type}

/-! ## Statements inside statements -/

/-- A name that a statement declares. -/
structure Declared where
  kind : DeclarationKind
  name : Token
  detail : String

def Declared.entry (lines : List Text.Line) (d : Declared) : Declaration :=
  .ofToken lines d.kind d.detail d.name

/-- What a statement declares by itself: its name, then its parameters. -/
def own : Stmt ι → List Declared
  | .var name _ => [⟨.var, name, ""⟩]
  | .function name parameters _ =>
    ⟨.function, name, signature name parameters⟩ :: parameters.map (⟨.parameter, ·, ""⟩)
  | .expression _ | .print _ | .block _ | .branch .. | .loop .. | .giveBack .. | .alien _ => []

/-- The statements directly inside a statement, in the order of the text. -/
def parts : Stmt ι → List (Stmt ι)
  | .function _ _ body | .block body => body
  | .branch _ yes no => yes :: no.toList
  | .loop _ body => [body]
  | .var .. | .expression _ | .print _ | .giveBack .. | .alien _ => []

/-- The statement `s` stands at `path` in a program: each step of the path is a number among the
statements of a program, or among those directly inside a statement. -/
inductive Holds : List (Stmt ι) → List Nat → Stmt ι → Prop
  | item {ss : List (Stmt ι)} {i : Nat} {s : Stmt ι} : ss[i]? = some s → Holds ss [i] s
  | inside {ss : List (Stmt ι)} {i : Nat} {s t : Stmt ι} {path : List Nat} :
      ss[i]? = some s → Holds (parts s) path t → Holds ss (i :: path) t

/-- A declaration and where it stands: in which statement, and which of its own it is. -/
structure Spot where
  path : List Nat
  number : Nat
  declared : Declared

namespace Spot

def key (p : Spot) : List Nat × Nat := (p.path, p.number)

/-- The same place, seen from the statement around. -/
def under (i : Nat) (p : Spot) : Spot := { p with path := i :: p.path }

@[simp] theorem under_declared (i : Nat) (p : Spot) : (p.under i).declared = p.declared := rfl

/-- The declaration stands there in the program. -/
def Within (ss : List (Stmt ι)) (p : Spot) : Prop :=
  ∃ s, Holds ss p.path s ∧ (own s)[p.number]? = some p.declared

end Spot

theorem parts_induction {P : Stmt ι → Prop} (step : ∀ s, (∀ t ∈ parts s, P t) → P s) (s : Stmt ι) :
    P s := by
  have hsize : ∀ s t : Stmt ι, t ∈ parts s → sizeOf t < sizeOf s := by
    intro s t ht
    cases s with
    | function name parameters body =>
      have := List.sizeOf_lt_of_mem (show t ∈ body from ht)
      simp only [Stmt.function.sizeOf_spec]
      omega
    | block body =>
      have := List.sizeOf_lt_of_mem (show t ∈ body from ht)
      simp only [Stmt.block.sizeOf_spec]
      omega
    | branch condition yes no =>
      rcases List.mem_cons.1 ht with rfl | ht
      · simp only [Stmt.branch.sizeOf_spec]
        omega
      · obtain rfl : no = some t := Option.mem_toList.1 ht
        simp only [Stmt.branch.sizeOf_spec, Option.some.sizeOf_spec]
        omega
    | loop =>
      obtain rfl := List.mem_singleton.1 ht
      simp only [Stmt.loop.sizeOf_spec]
      omega
    | _ => cases ht
  induction hn : sizeOf s using Nat.strongRecOn generalizing s with
  | _ n ih => exact step s fun t ht => ih _ (hn ▸ hsize s t ht) t rfl

/-! ## The places of a program -/

/-- The places of what a statement declares by itself. -/
def ownPlaces (s : Stmt ι) : List Spot := (own s).mapIdx fun i d => ⟨[], i, d⟩

mutual
/-- All places of declarations, seen from the statement. -/
def places : Stmt ι → List Spot
  | .var name initializer => ownPlaces (.var name initializer)
  | .function name parameters body =>
    ownPlaces (.function name parameters body) ++ placesFrom 0 body
  | .block body => placesFrom 0 body
  | .branch _ yes no => (places yes).map (.under 0) ++ placesInOption no
  | .loop _ body => (places body).map (.under 0)
  | .expression _ | .print _ | .giveBack .. | .alien _ => []

def placesInOption : Option (Stmt ι) → List Spot
  | none => []
  | some s => (places s).map (.under 1)

/-- The places of a row of statements that are numbered from `i` on. -/
def placesFrom (i : Nat) : List (Stmt ι) → List Spot
  | [] => []
  | s :: rest => (places s).map (.under i) ++ placesFrom (i + 1) rest
end

theorem places_eq (s : Stmt ι) : places s = ownPlaces s ++ placesFrom 0 (parts s) := by
  cases s with
  | branch condition yes no =>
    cases no <;> simp [places, placesInOption, placesFrom, parts, ownPlaces, own]
  | _ => simp [places, placesFrom, parts, ownPlaces, own]

/-- What is declared does not depend on the numbers. -/
theorem placesFrom_declared (ss : List (Stmt ι)) (i : Nat) :
    (placesFrom i ss).map Spot.declared = ss.flatMap fun s => (places s).map Spot.declared := by
  induction ss generalizing i with
  | nil => rfl
  | cons s rest ih =>
    rw [placesFrom, List.map_append, ih, List.map_map, List.flatMap_cons]
    rfl

theorem ownPlaces_declared (s : Stmt ι) : (ownPlaces s).map Spot.declared = own s := by
  exact List.ext_getElem (by simp [ownPlaces]) (by simp [ownPlaces])

/-- All that a statement declares, at any depth. -/
def allDeclared (s : Stmt ι) : List Declared := (places s).map Spot.declared

theorem allDeclared_eq (s : Stmt ι) :
    allDeclared s = own s ++ (parts s).flatMap allDeclared := by
  rw [allDeclared, places_eq, List.map_append, ownPlaces_declared, placesFrom_declared]
  rfl

/-! ### Each place once -/

theorem mem_placesFrom {ss : List (Stmt ι)} {i : Nat} {p : Spot} :
    p ∈ placesFrom i ss ↔ ∃ j s q, ss[j]? = some s ∧ q ∈ places s ∧ p = q.under (i + j) := by
  induction ss generalizing i with
  | nil => simp [placesFrom]
  | cons s rest ih =>
    rw [placesFrom, List.mem_append, List.mem_map, ih]
    constructor
    · rintro (⟨q, hq, rfl⟩ | ⟨j, t, q, hj, hq, rfl⟩)
      · exact ⟨0, s, q, rfl, hq, rfl⟩
      · exact ⟨j + 1, t, q, hj, hq, by rw [Nat.add_right_comm, Nat.add_assoc]⟩
    · rintro ⟨_ | j, t, q, hj, hq, rfl⟩
      · obtain rfl : s = t := by simpa using hj
        exact Or.inl ⟨q, hq, rfl⟩
      · exact Or.inr ⟨j, t, q, hj, hq, by rw [Nat.add_right_comm, Nat.add_assoc]⟩

theorem mem_ownPlaces {s : Stmt ι} {p : Spot} :
    p ∈ ownPlaces s ↔ p.path = [] ∧ (own s)[p.number]? = some p.declared := by
  obtain ⟨path, number, declared⟩ := p
  simp only [ownPlaces, List.mem_mapIdx, Spot.mk.injEq]
  constructor
  · rintro ⟨i, hi, rfl, rfl, rfl⟩
    exact ⟨rfl, List.getElem?_eq_getElem hi⟩
  · rintro ⟨rfl, hown⟩
    obtain ⟨hi, hget⟩ := List.getElem?_eq_some_iff.1 hown
    exact ⟨number, hi, rfl, rfl, hget⟩

theorem mem_places (s : Stmt ι) : ∀ p : Spot, p ∈ places s ↔
    (p.path = [] ∧ (own s)[p.number]? = some p.declared) ∨ p.Within (parts s) := by
  induction s using parts_induction with
  | step s ih =>
    intro p
    rw [places_eq, List.mem_append, mem_ownPlaces, mem_placesFrom]
    refine or_congr_right ⟨?_, ?_⟩
    · rintro ⟨j, t, q, hj, hq, rfl⟩
      rw [Nat.zero_add]
      rcases (ih t (List.mem_of_getElem? hj) q).1 hq with ⟨hpath, hown⟩ | ⟨u, hu, hown⟩
      · refine ⟨t, ?_, hown⟩
        simpa [Spot.under, hpath] using Holds.item hj
      · exact ⟨u, .inside hj hu, hown⟩
    · obtain ⟨path, number, declared⟩ := p
      rintro ⟨u, hu, hown⟩
      cases hu with
      | @item _ i _ hi =>
        refine ⟨i, u, ⟨[], number, declared⟩, hi, ?_, by simp [Spot.under]⟩
        exact (ih u (List.mem_of_getElem? hi) _).2 (Or.inl ⟨rfl, hown⟩)
      | @inside _ i t _ path hi hpath =>
        refine ⟨i, t, ⟨path, number, declared⟩, hi, ?_, by simp [Spot.under]⟩
        exact (ih t (List.mem_of_getElem? hi) _).2 (Or.inr ⟨u, hpath, hown⟩)

/-- The places of a program are all that there are in it. -/
theorem mem_placesFrom_zero (ss : List (Stmt ι)) (p : Spot) :
    p ∈ placesFrom 0 ss ↔ p.Within ss := by
  have hblock := mem_places (.block ss) p
  rw [places] at hblock
  simpa [own, parts] using hblock

theorem declarationsInAll_eq (lines : List Text.Line) (ss : List (Stmt ι)) :
    declarationsInAll lines ss = ss.flatMap (declarations lines) := by
  induction ss with
  | nil => rfl
  | cons s rest ih => rw [declarationsInAll, ih, List.flatMap_cons]

theorem declarations_parts (lines : List Text.Line) (s : Stmt ι) :
    declarations lines s =
      (own s).map (·.entry lines) ++ (parts s).flatMap (declarations lines) := by
  cases s with
  | function name parameters body =>
    simp [declarations, declarationsInAll_eq, own, parts, Declared.entry]
  | branch condition yes no =>
    cases no <;> simp [declarations, declarationsInOption, own, parts]
  | _ => simp [declarations, declarationsInAll_eq, own, parts, Declared.entry]

theorem declarations_eq (lines : List Text.Line) (s : Stmt ι) :
    declarations lines s = (allDeclared s).map (·.entry lines) := by
  induction s using parts_induction with
  | step s ih =>
    rw [declarations_parts, allDeclared_eq, List.map_append, List.map_flatMap]
    exact congrArg _ (List.flatMap_congr ih)

/-- One entry for each place, in order. -/
theorem declarationsInAll_places (lines : List Text.Line) (ss : List (Stmt ι)) :
    declarationsInAll lines ss = (placesFrom 0 ss).map fun p => p.declared.entry lines := by
  have hplaces := congrArg (List.map (Declared.entry lines)) (placesFrom_declared ss 0)
  rw [List.map_map, List.map_flatMap] at hplaces
  rw [declarationsInAll_eq]
  exact (List.flatMap_congr fun s _ => declarations_eq lines s).trans hplaces.symm

/-! ## Symbols -/

/-- The index of a text is that of its reading. -/
theorem Index.eq_ofReading {text : String} {index : Index} (h : Index.ofText? text = some index) :
    index = .ofReading text (read nestingLimit text) := by
  simp only [Index.ofText?] at h
  split at h
  · exact (Option.some.inj h).symm
  · cases h

end Scriptling.Editor
