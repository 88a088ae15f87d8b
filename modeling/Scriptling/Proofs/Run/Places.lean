-- Places in a program, on both sides: what an expression sees there, and where a statement
-- stands. The steps that read and write variables at a place keep the agreement.
import Scriptling.Proofs.Run.Meets

namespace Scriptling

open Lexical (CellId Names Site)

variable {natives : List Native} {mayFail : Prop}

/-! ## Places -/

/-- A place for statements, on both sides. -/
structure Standing (h : Heap) (link : Links) (S : Scopes) (chain : Chain) (site : Site) : Prop where
  covers : Covers h link S chain site.names
  settled : Settled S
  fresh : Fresh link S chain
  inside : site = .global ↔ S = []

section Places

variable {h : Heap} {link : Links} {scope : Scope} {S : Scopes} {i : FrameId} {chain : Chain}
  {names : Names} {x : String}

/-- A name is declared, and gets a cell. It is not ready yet. -/
theorem Covers.declare (hcovers : Covers h link (scope :: S) (i :: chain) names)
    (hnew : link i x = none) (c : CellId) :
    Covers h (link.add i x c) (scope.put x false :: S) (i :: chain) ((x, c) :: names) := by
  have hold : ∀ j y l, link j y = some l → link.add i x c j y = some l := by
    intro j y l hl
    refine (Links.add_of_ne _ _ ?_).trans hl
    rintro ⟨rfl, rfl⟩
    rw [hnew] at hl
    cases hl
  cases hcovers with
  | @scope _ _ _ _ near names outer inside known declared other ready =>
    have houter := outer.mono (Nat.le_refl _) hold fun _ _ => id
    show Covers h (link.add i x c) _ _ (((x, c) :: near) ++ names)
    refine .scope houter inside known ?_ ?_ ?_
    · intro y hy
      by_cases hyx : y = x
      · subst hyx
        exact ⟨c, Links.add_self .., by simp⟩
      · rw [Bindings.binds_put, decide_eq_false hyx, Bool.false_or] at hy
        obtain ⟨l, hl, hlookup⟩ := declared y hy
        refine ⟨l, hold i y l hl, ?_⟩
        rw [List.lookup_cons, beq_false_of_ne hyx]
        exact hlookup
    · intro y hy
      rw [Bindings.binds_put, Bool.or_eq_false_iff] at hy
      have hyx : y ≠ x := of_decide_eq_false hy.1
      rw [List.lookup_cons, beq_false_of_ne hyx]
      exact other y hy.2
    · intro y hy
      by_cases hyx : y = x
      · subst hyx
        rw [Bindings.get?_put_self] at hy
        cases hy
      · rw [Bindings.get?_put_of_ne _ hyx] at hy
        exact ready y hy

/-- A declared name is ready once it is bound. -/
theorem Covers.finish (hcovers : Covers h link (scope.put x false :: S) (i :: chain) names)
    (hbound : (h.frame i).binds x = true) :
    Covers h link (scope.put x true :: S) (i :: chain) names := by
  cases hcovers with
  | @scope _ _ _ _ near names outer inside known declared other ready =>
    refine Covers.scope outer inside known (fun y hy => declared y ?_) (fun y hy => other y ?_) ?_
    · rwa [Bindings.binds_put] at hy ⊢
    · rwa [Bindings.binds_put] at hy ⊢
    · intro y hy
      by_cases hyx : y = x
      · subst hyx
        exact hbound
      · rw [Bindings.get?_put_of_ne _ hyx] at hy
        refine ready y ?_
        rwa [Bindings.get?_put_of_ne _ hyx]

theorem Settled.put (hsettled : Settled (scope :: S)) (x : String) :
    Settled (scope.put x true :: S) := by
  intro scope' hscope y b hb
  obtain rfl | hscope := List.mem_cons.1 hscope
  · by_cases hyx : y = x
    · subst hyx
      rw [Bindings.get?_put_self] at hb
      cases hb
      rfl
    · rw [Bindings.get?_put_of_ne _ hyx] at hb
      exact hsettled scope List.mem_cons_self y b hb
  · exact hsettled scope' (List.mem_cons_of_mem _ hscope) y b hb

theorem fresh_add (hfresh : Fresh link (scope :: S) (i :: chain)) (c : CellId) (b : Bool) :
    Fresh (link.add i x c) (scope.put x b :: S) (i :: chain) := by
  intro y l hl
  rw [Bindings.binds_put]
  by_cases hyx : y = x
  · rw [decide_eq_true hyx, Bool.true_or]
  · rw [Links.add_of_ne _ _ fun heq => hyx heq.2] at hl
    rw [hfresh y l hl, Bool.or_true]

/-- A place in a new frame. -/
theorem Covers.block {n : FrameId} (hcovers : Covers h link S chain names) (hsettled : Settled S)
    (hlinked : ∀ x c, link n x ≠ some c) (hinside : 0 < n) (hknown : n < h.next) :
    Standing h link (.empty :: S) (n :: chain) (.inside names) where
  covers := by
    show Covers h link _ _ ([] ++ names)
    refine .scope hcovers hinside hknown ?_ ?_ ?_
    · intro x hx
      cases hx
    · exact fun _ _ => rfl
    · intro x hx
      cases hx
  settled := by
    intro scope hscope x b hb
    obtain rfl | hscope := List.mem_cons.1 hscope
    · cases hb
    · exact hsettled scope hscope x b hb
  fresh := fun x c hc => absurd hc (hlinked x c)
  inside := by simp

end Places

/-- What code of an accepted program sees, on both sides. Only in the innermost scope a name may be
declared and not ready. -/
structure Sees (natives : List Native) (p : Pair) (n : Nat) (P : Accepted) (S : Scopes)
    (chain : Chain) (names : Names) : Prop where
  agree : Agree natives none p
  program : p.watched.programs[n]? = some P
  covers : Covers p.watched.world.heap p.link S chain names
  settled : Settled S.tail

section Variables

variable {p q : Pair} {n : Nat} {P : Accepted} {S : Scopes} {path : Trail} {chain : Chain}
  {names : Names} {i₀ : FrameId}

theorem Sees.grow (h : Sees natives p n P S chain names) (hq : Agree natives none q)
    (hgrows : Grows i₀ p.core q.core) : Sees natives q n P S chain names :=
  ⟨hq, hgrows.programs _ _ h.program, h.covers.grow hgrows, h.settled⟩

/-- The distance in use is the one that the scopes give. -/
theorem Sees.distance (h : Sees natives p n P S chain names) {x : String} {use : UseId}
    (hbelow : use < P.nextUse) (hrecorded : P.found.distances[use]? = S.distance? x) :
    p.watched.world.distances[use]? = S.distance? x := by
  rw [← hrecorded]
  exact (h.agree.tabled.accepted n P h.program).2 use hbelow

/-- A local name has a value, in its frame and in its cell. -/
theorem Sees.value (h : Sees natives p n P S chain names) {x : String} {d : Nat}
    (hd : S.distance? x = some d) (hready : S.unfinished x = false) :
    ∃ i c v, chain[d]? = some i ∧ (p.watched.world.heap.frame i).get? x = some v ∧
      names.lookup x = some c ∧ p.lexical.cells[c]? = some v := by
  obtain ⟨scope, i, c, hscope, hi, hinside, -, hbinds, hlink, hlookup, hbound⟩ := h.covers.local hd
  obtain ⟨b, hb⟩ := Option.isSome_iff_exists.1 hbinds
  -- a name that is not ready is in the innermost scope, and may not be used there
  have htrue : b = true := by
    cases S with
    | nil => cases hscope
    | cons scope₀ S =>
      cases d with
      | zero =>
        cases hscope
        rw [Scopes.unfinished, hb] at hready
        cases b with
        | true => rfl
        | false => cases hready
      | succ d => exact h.settled scope (List.mem_of_getElem? hscope) x b hb
  subst htrue
  obtain ⟨v, hv⟩ := Option.isSome_iff_exists.1 (hbound hb)
  obtain ⟨c', hc', hcell⟩ := h.agree.linked.bound i x v hinside hv
  rw [hlink] at hc'
  cases hc'
  exact ⟨i, c, v, hi, hv, hlookup, hcell⟩

theorem meets_note {α β : Type} {R : Pair → α → β → Prop} {x : Watch α} {y : Lexical.ByName β}
    {spot : Spot} {node : Node} (hp : Agree natives none p)
    (hgood : Visit.Good p.watched.programs ⟨spot, node, chain, p.watched.world⟩)
    (hnext : ∀ q, Agree natives none q → Grows 0 p.core q.core →
      Meets natives mayFail i₀ q x y R) :
    Meets natives mayFail i₀ p (do Watch.note spot node chain; x) y R := by
  refine Meets.left (q := { p with watched := { p.watched with
    visits := ⟨spot, node, chain, p.watched.world⟩ :: p.watched.visits } }) rfl rfl ?_ fun _ => id
  exact hnext _ (hp.note hgood) (grows_refl _ _)

theorem meets_readLocal (hp : Agree natives none p) {d : Nat} {i : FrameId} {c : CellId}
    {x : String} {v : Value} (hi : chain[d]? = some i)
    (hv : (p.watched.world.heap.frame i).get? x = some v) (hc : p.lexical.cells[c]? = some v) :
    Meets natives mayFail i₀ p (Watch.lift (Eval.readAt chain d x)) (Lexical.readCell c)
      (SameValue natives) := by
  have hget : p.watched.world.heap.getAt chain d x = .ok v := by
    simp only [Heap.getAt, hi, hv]
  have hread : Eval.readAt chain d x p.watched.world = .ok v p.watched.world := by
    rw [Eval.readAt, get_bind, hget]
    rfl
  have hcell : Lexical.readCell c p.lexical = .ok v p.lexical := by
    show EStateM.Result.ok (p.lexical.cells[c]?.getD .nil) p.lexical = _
    rw [hc]
    rfl
  refine meets_step ?_ hcell hp (grows_refl _ _) ⟨rfl, hp.genuine i x v hv⟩
  rw [Watch.lift, hread]

theorem meets_assignLocal (hp : Agree natives none p) {d : Nat} {i : FrameId} {c : CellId}
    {x : String} {v : Value} (hi : chain[d]? = some i) (hc : p.link i x = some c)
    (hv : Genuine natives p.watched.world.code v) :
    Meets natives mayFail 0 p (Watch.lift (Eval.assignAt chain d x v)) (Lexical.writeCell c v)
      Any := by
  obtain ⟨hq, hgrows⟩ := hp.write hc hv
  refine meets_step (a := ()) ?_ rfl hq hgrows trivial
  rw [Watch.lift, Eval.assignAt, hi]
  rfl

theorem heap_get?_global (h : Heap) (x : String) : h.get? globalChain x = (h.frame 0).get? x := by
  show List.findSome? _ [0] = _
  rw [List.findSome?_singleton]

theorem Eval.readGlobal_eq (name : Token) (w : World) : Eval.readGlobal name w =
    match (w.heap.frame 0).get? name.lexeme with
    | some v => .ok v w
    | none => .error (.failed ⟨name, .undefinedVariable name.lexeme⟩) w := by
  rw [← heap_get?_global, Eval.readGlobal, get_bind]
  cases w.heap.get? globalChain name.lexeme <;> rfl

theorem Lexical.readGlobal_eq (name : Token) (s : Lexical.State) : Lexical.readGlobal name s =
    match s.globals.get? name.lexeme with
    | some v => .ok v s
    | none => .error (.failed ⟨name, .undefinedVariable name.lexeme⟩) s := by
  rw [Lexical.readGlobal, get_bind]
  cases s.globals.get? name.lexeme <;> rfl

theorem meets_readGlobal (hp : Agree natives none p) (name : Token) :
    Meets natives mayFail i₀ p (Watch.lift (Eval.readGlobal name)) (Lexical.readGlobal name)
      (SameValue natives) := by
  unfold Meets
  rw [Watch.lift, Eval.readGlobal_eq, Lexical.readGlobal_eq, ← hp.surface.globals]
  cases hv : (p.watched.world.heap.frame 0).get? name.lexeme with
  | some v => exact .ok hp (grows_refl _ _) ⟨rfl, hp.genuine 0 _ v hv⟩
  | none => exact .error hp (grows_refl _ _) ⟨by simp, by simp⟩

theorem Eval.assignGlobal_eq (name : Token) (v : Value) (w : World) :
    Eval.assignGlobal name v w =
      if (w.heap.frame 0).binds name.lexeme then
        .ok () { w with heap := w.heap.put 0 name.lexeme v }
      else .error (.failed ⟨name, .undefinedVariable name.lexeme⟩) w := by
  have hholder : w.heap.holder? globalChain name.lexeme =
      if (w.heap.frame 0).binds name.lexeme then some 0 else none := by
    show List.find? _ [0] = _
    rw [List.find?_singleton]
  rw [Eval.assignGlobal, get_bind, hholder]
  cases (w.heap.frame 0).binds name.lexeme <;> rfl

theorem Lexical.assignGlobal_eq (name : Token) (v : Value) (s : Lexical.State) :
    Lexical.assignGlobal name v s =
      if s.globals.binds name.lexeme then
        .ok () { s with globals := s.globals.put name.lexeme v }
      else .error (.failed ⟨name, .undefinedVariable name.lexeme⟩) s := by
  rw [Lexical.assignGlobal, get_bind]
  cases s.globals.binds name.lexeme <;> rfl

theorem meets_assignGlobal (hp : Agree natives none p) (name : Token) {v : Value}
    (hv : Genuine natives p.watched.world.code v) :
    Meets natives mayFail 0 p (Watch.lift (Eval.assignGlobal name v))
      (Lexical.assignGlobal name v) Any := by
  unfold Meets
  rw [Watch.lift, Eval.assignGlobal_eq, Lexical.assignGlobal_eq, hp.surface.globals]
  cases p.lexical.globals.binds name.lexeme with
  | true =>
    obtain ⟨hq, hgrows⟩ := hp.writeGlobal name.lexeme hv
    exact .ok (R := Any) (a := ()) (b := ()) hq hgrows trivial
  | false => exact .error hp (grows_refl _ _) ⟨by simp, by simp⟩

end Variables

/-- A place for statements of an accepted program, on both sides. -/
structure Stands (natives : List Native) (p : Pair) (n : Nat) (P : Accepted) (S : Scopes)
    (chain : Chain) (site : Site) : Prop where
  agree : Agree natives none p
  program : p.watched.programs[n]? = some P
  standing : Standing p.watched.world.heap p.link S chain site

end Scriptling
