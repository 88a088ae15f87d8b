-- An editor and a session see the same errors in a text. The editor looks at it with nothing before
-- it, the session after anything that it may have run; but neither the labels given before nor the
-- distances recorded before show in the errors of a text.
import Scriptling.Editor.Document
import Scriptling.Proofs.Run.Globals
import Scriptling.Proofs.Run.Rejected

namespace Scriptling

/-! ## Texts that are executed -/

/-- Running a source comes to executing its statements, whatever it is to execute one. -/
def World.Executes (w : World) (limits : Limits) (source : String) : Prop :=
  ∀ execute : Stmt UseId → Eval (Option Value),
    Eval.run limits.depth execute (.text source) w =
      Eval.program execute (w.load limits source).1 (w.load limits source).2

section Executes

variable {w : World} {limits : Limits} {source : String}

/-- A rejected source is not executed: its run leaves a mark that executing nothing does not leave,
and it does not stop where executing something would. -/
theorem World.Rejects.not_executes (h : w.Rejects limits source) : ¬ w.Executes limits source := by
  intro hexecutes
  have hrun := hexecutes fun _ => throw .outOfPatience
  rw [h.run] at hrun
  cases hstatements : (w.load limits source).1 with
  | nil =>
    rw [hstatements] at hrun
    have hworld : w.reject limits source = (w.load limits source).2 :=
      (EStateM.Result.ok.inj hrun).2
    exact absurd (congrArg World.hadError hworld)
      (by simp [World.reject, World.load, World.prepare])
  | cons s ss =>
    rw [hstatements, Eval.program_cons] at hrun
    cases hrun

/-- Unless there is no room to read it, a source is executed if there is nothing against it. -/
theorem World.objections_eq_nil_iff (hroom : 5 ≤ limits.depth) :
    w.objections limits source = [] ↔ w.Executes limits source := by
  constructor
  · intro hnone execute
    exact (World.accepts_iff.2 ⟨hroom, hnone⟩).run execute
  · intro hexecutes
    by_contra hsome
    exact World.Rejects.not_executes ⟨hroom, hsome⟩ hexecutes

/-- In an orderly session a source first has its static errors reported. If there is one, nothing
else happens; if there is none, a runtime error may be reported then. -/
theorem World.Orderly.run_reports (h : w.Orderly) (hroom : 5 ≤ limits.depth) (source : String) :
    ∃ error? : Option RuntimeError,
      (w.run limits source).2.reports.toList = w.reports.toList ++
        (w.objections limits source).map Report.static ++ error?.toList.map Report.runtime ∧
      (w.objections limits source ≠ [] →
        error? = none ∧ (w.run limits source).1 = .finished ∧
          Untouched w (w.run limits source).2) := by
  obtain haccepts | hrejects := w.accepts_or_rejects hroom source
  · have hnone := (World.accepts_iff.1 haccepts).2
    obtain ⟨error?, hreports⟩ := (haccepts.executed h).reports
    refine ⟨error?, ?_, absurd hnone⟩
    rw [hreports, hnone, List.map_nil, List.append_nil]
  · rw [hrejects.request]
    refine ⟨none, ?_, fun _ => ⟨rfl, rfl, rfl, rfl, rfl, rfl⟩⟩
    show (w.reports ++ _).toList = _
    rw [Array.toList_append]
    simp

/-- Runtime errors do not show among the static ones. -/
theorem World.staticErrors_of_reports {v : World} {errors : List StaticError}
    {failures : List RuntimeError}
    (h : v.reports.toList = w.reports.toList ++ errors.map Report.static ++
      failures.map Report.runtime) : v.staticErrors = w.staticErrors ++ errors := by
  have hstatic : (errors.map Report.static).filterMap Report.static? = errors := by
    rw [List.filterMap_map]
    exact List.filterMap_some
  have hruntime : (failures.map Report.runtime).filterMap Report.static? = [] := by
    rw [List.filterMap_map]
    exact List.filterMap_eq_nil_iff.2 fun _ _ => rfl
  rw [World.staticErrors, h, List.filterMap_append, List.filterMap_append, hstatic, hruntime,
    List.append_nil, World.staticErrors]

end Executes

/-! ## The errors that an editor shows -/

namespace Editor

theorem staticErrors_eq_objections (w : World) (patience : Nat) (text : String) :
    staticErrors (read nestingLimit text) = w.objections ⟨walkLimit, patience⟩ text := by
  rw [w.objections_eq (World.start 0)]
  have hlimit : walkLimit - 5 = nestingLimit := rfl
  unfold staticErrors World.objections World.load
  rw [hlimit]
  simp only [List.isEmpty_iff]
  rfl

/-- Whatever a session did before, if no native runs a source itself: an editor finds in a text the
static errors that running the text reports, before anything is executed and in the same order. It
shows none exactly if the session goes on to execute the text. -/
theorem errors_agree_with_run {natives : List Native} (hnatives : RunsNoSource natives)
    (time : Float) (requests : List Request) (patience : Nat) (text : String)
    (hlevels : declarationLevelsInAll (read nestingLimit text).statements ≤ walkLimit) :
    let w := ((World.create natives time).serve requests).2
    let limits : Limits := ⟨walkLimit, patience⟩
    let v := (w.run limits text).2
    ∃ i, Index.ofText? text = some i ∧
      v.staticErrors = w.staticErrors ++ i.errors ∧
      (∃ error? : Option RuntimeError, v.reports.toList =
          w.reports.toList ++ i.errors.map Report.static ++ error?.toList.map Report.runtime ∧
        (i.errors ≠ [] → error? = none ∧ (w.run limits text).1 = .finished ∧ Untouched w v)) ∧
      (diagnostics text i = [] ↔ w.Executes limits text) := by
  intro w limits v
  have horderly : w.Orderly := (orderly_create hnatives time).serve requests
  have hroom : 5 ≤ limits.depth := Nat.le_add_left 5 nestingLimit
  have herrors : (Index.ofReading text (read nestingLimit text)).errors =
      w.objections limits text := staticErrors_eq_objections w patience text
  obtain ⟨error?, hreports, hrejected⟩ := horderly.run_reports hroom text
  refine ⟨.ofReading text (read nestingLimit text), if_pos hlevels, ?_⟩
  rw [diagnostics, List.map_eq_nil_iff, herrors]
  exact ⟨World.staticErrors_of_reports hreports, ⟨error?, hreports, hrejected⟩,
    World.objections_eq_nil_iff hroom⟩

theorem errors_agree_with_run_of_halfResolved :
    let w := ((World.create Native.standard 0).serve closureRequests).2
    let v := (w.run ⟨walkLimit, 5⟩ halfResolved).2
    ∃ i, Index.ofText? halfResolved = some i ∧ i.errors.map (·.problem) = [.topLevelReturn] ∧
      v.staticErrors = w.staticErrors ++ i.errors ∧ Untouched w v ∧
      ¬ w.Executes ⟨walkLimit, 5⟩ halfResolved := by
  have hlevels : declarationLevelsInAll (read nestingLimit halfResolved).statements ≤
      walkLimit := by decide +kernel
  obtain ⟨i, hindex, herrors, ⟨_, -, hrejected⟩, hshown⟩ := errors_agree_with_run
    runsNoSource_standard 0 closureRequests 5 halfResolved hlevels
  have hproblems : (Index.ofText? halfResolved).map (·.errors.map (·.problem)) =
      some [.topLevelReturn] := by decide +kernel
  rw [hindex] at hproblems
  have hproblems' : i.errors.map (·.problem) = [.topLevelReturn] := Option.some.inj hproblems
  have hne : i.errors ≠ [] := by
    rintro hnil
    rw [hnil] at hproblems'
    cases hproblems'
  refine ⟨i, hindex, hproblems', herrors, (hrejected hne).2.2, fun hexecutes => hne ?_⟩
  exact List.map_eq_nil_iff.1 (hshown.2 hexecutes)

end Editor

end Scriptling
