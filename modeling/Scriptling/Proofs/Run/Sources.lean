-- What running a source comes to. Without a static error its statements are executed. With one, the
-- errors are reported and that is all that a host can see; but the uses of the source keep their
-- labels, and distances may be recorded for them.
import Scriptling.Proofs.Run.Sessions

namespace Scriptling

/-! ## Rejected sources -/

/-- The errors for which a source is not executed: those met in reading it or, where there are
none, those of scope. -/
def World.objections (w : World) (limits : Limits) (source : String) : List StaticError :=
  if (read (limits.depth - 5) source).errors = [] then
    (Scriptling.resolve limits.depth w.distances (w.load limits source).1).1.errors.toList
  else (read (limits.depth - 5) source).errors

/-- A source has a static error. -/
structure World.Rejects (w : World) (limits : Limits) (source : String) : Prop where
  room : 5 ≤ limits.depth
  objections : w.objections limits source ≠ []

/-- The world after a source was rejected. -/
def World.reject (w : World) (limits : Limits) (source : String) : World :=
  { w with
    hadError := true
    nextUse := (w.load limits source).2.nextUse
    distances := if (read (limits.depth - 5) source).errors = [] then
        (w.load limits source).2.distances
      else w.distances
    reports := w.reports ++ ((w.objections limits source).map Report.static).toArray }

theorem Eval.reportAll_eq (errors : List StaticError) (w : World) :
    errors.forM Eval.reportStatic w = .ok () { w with
      reports := w.reports ++ (errors.map Report.static).toArray
      hadError := w.hadError || !errors.isEmpty } := by
  induction errors generalizing w with
  | nil => simp [List.forM_eq_forM, pure, EStateM.pure]
  | cons e errors ih =>
    refine (bind_of_ok rfl).trans ((ih _).trans ?_)
    simp

section Rejects

variable {w : World} {limits : Limits} {source : String}

theorem World.accepts_iff : w.Accepts limits source ↔
    5 ≤ limits.depth ∧ w.objections limits source = [] := by
  unfold World.objections
  constructor
  · intro h
    refine ⟨h.room, ?_⟩
    rw [if_pos h.reading, h.scopes]
  · rintro ⟨hroom, hnone⟩
    split at hnone
    · rename_i hreading
      exact ⟨hroom, hreading, Array.toList_eq_nil_iff.1 hnone⟩
    · rename_i hreading
      exact absurd hnone hreading

/-- With room to read it, a source is accepted or rejected. -/
theorem World.accepts_or_rejects (w : World) (hroom : 5 ≤ limits.depth) (source : String) :
    w.Accepts limits source ∨ w.Rejects limits source := by
  by_cases hnone : w.objections limits source = []
  · exact Or.inl (World.accepts_iff.2 ⟨hroom, hnone⟩)
  · exact Or.inr ⟨hroom, hnone⟩

/-- Where there are fewer than five levels, a source is not even read. -/
theorem Eval.run_of_lt (hlt : limits.depth < 5) (execute : Stmt UseId → Eval (Option Value)) :
    Eval.run limits.depth execute (.text source) w =
      .error .overflow { w with hadError := false } := by
  have hroom : Eval.room limits.depth 5 = throw .overflow := if_neg (by omega)
  show Eval.source limits.depth execute source { w with hadError := false } = _
  unfold Eval.source
  rw [hroom]
  rfl

/-- A rejected source is not executed. -/
theorem World.Rejects.run (h : w.Rejects limits source)
    (execute : Stmt UseId → Eval (Option Value)) :
    Eval.run limits.depth execute (.text source) w = .ok () (w.reject limits source) := by
  have hroom : Eval.room limits.depth 5 = pure () := if_pos h.room
  show Eval.source limits.depth execute source { w with hadError := false } = _
  unfold Eval.source
  rw [hroom]
  refine (bind_of_ok rfl).trans ((bind_of_ok (Eval.reportAll_eq _ _)).trans ?_)
  refine (bind_of_ok (Eval.label_eq rfl)).trans ((bind_of_ok rfl).trans ?_)
  have hobjections := h.objections
  unfold World.reject
  unfold World.objections at hobjections ⊢
  by_cases hreading : (read (limits.depth - 5) source).errors = []
  · -- nothing was reported yet, and the errors are those of scope
    rw [if_pos hreading] at hobjections
    rw [if_pos hreading, if_pos hreading, hreading]
    have hreports := Eval.reportAll_eq
      (Scriptling.resolve limits.depth w.distances (w.load limits source).1).1.errors.toList
      (w.load limits source).2
    have hresolve := Eval.resolve_regular (w.load_regular hreading) limits.depth
      { w with hadError := false, nextUse := (w.load limits source).2.nextUse }
    rw [List.isEmpty_eq_false_iff.2 hobjections] at hreports
    have hreport := hresolve.trans hreports
    simp only [List.map_nil, Array.append_empty, List.isEmpty_nil, Bool.not_true, Bool.or_false,
      Bool.false_eq_true, if_false]
    exact (bind_of_ok hreport).trans rfl
  · rw [if_neg hreading, if_neg hreading, List.isEmpty_eq_false_iff.2 hreading]
    rfl

end Rejects

/-- Which errors a source has does not depend on the sources before it. -/
theorem World.objections_eq (w w' : World) (limits : Limits) (source : String) :
    w.objections limits source = w'.objections limits source := by
  unfold World.objections World.load World.prepare
  rw [resolve_alike limits.depth w.distances w'.distances _ w.nextUse w'.nextUse]

/-- A source that is accepted in one world is accepted in all. -/
theorem World.Accepts.elsewhere {w : World} {limits : Limits} {source : String}
    (h : w.Accepts limits source) (w' : World) : w'.Accepts limits source :=
  World.accepts_iff.2 ⟨h.room, (w'.objections_eq w limits source).trans (World.accepts_iff.1 h).2⟩

/-! ## Labels of a source -/

/-- Labelled statements get distances for their own labels only. -/
theorem resolve_kept_outside {raw : List RawStmt} {n next : Nat} {ss : List (Stmt UseId)}
    (hlabel : (Stmt.labelAll raw).run n = (ss, next)) (d : Nat) (D : Distances) {l : UseId}
    (hl : l < n ∨ next ≤ l) : (resolve d D ss).1.distances[l]? = D[l]? := by
  obtain ⟨_, _, hlabel', -, hnumbers⟩ := Stmt.labelAll_labels raw n
  rw [hlabel] at hlabel'
  cases hlabel'
  refine resolve_kept d D ss fun hmem => ?_
  obtain ⟨hle, hlt⟩ := hnumbers.mem hmem
  obtain hl | hl := hl
  · exact Nat.not_lt_of_le hle hl
  · exact Nat.not_lt_of_le hl hlt

section Prepare

variable {w : World} {raw : List RawStmt} {ss : List (Stmt UseId)} {next : UseId}

theorem World.prepare_of_label (h : (Stmt.labelAll raw).run w.nextUse = (ss, next)) (depth : Nat) :
    w.prepare depth raw = (ss, { w with
      hadError := false
      nextUse := next
      distances := (Scriptling.resolve depth w.distances ss).1.distances }) := by
  unfold World.prepare
  rw [h]

/-- Labels go up. -/
theorem World.prepare_next (w : World) (depth : Nat) (raw : List RawStmt) :
    w.nextUse ≤ (w.prepare depth raw).2.nextUse := by
  obtain ⟨ss, next, hlabel, -, hnumbers⟩ := Stmt.labelAll_labels raw w.nextUse
  rw [World.prepare_of_label hlabel]
  exact hnumbers.1

/-- Only the labels of the statements themselves get distances. -/
theorem World.prepare_distances (w : World) (depth : Nat) (raw : List RawStmt) {l : UseId}
    (hl : l < w.nextUse ∨ (w.prepare depth raw).2.nextUse ≤ l) :
    (w.prepare depth raw).2.distances[l]? = w.distances[l]? := by
  obtain ⟨ss, next, hlabel, -, -⟩ := Stmt.labelAll_labels raw w.nextUse
  rw [World.prepare_of_label hlabel] at hl ⊢
  exact resolve_kept_outside hlabel depth w.distances hl

end Prepare

theorem World.reject_distances (w : World) (limits : Limits) (source : String) {l : UseId}
    (hl : l < w.nextUse ∨ (w.load limits source).2.nextUse ≤ l) :
    (w.reject limits source).distances[l]? = w.distances[l]? := by
  unfold World.reject
  dsimp only
  split
  · exact w.prepare_distances _ _ hl
  · rfl

end Scriptling
