-- Accepted programs do not fail from inside. Each of their top-level statements completes without
-- returning anything, goes on for too long, or stops with a runtime error, which is reported and
-- ends the program.
import Scriptling.Proofs.Run.Sessions

namespace Scriptling

open Lexical (State)

/-! ## The course of a program -/

/-- The world with one more error reported. -/
def World.reporting (w : World) (e : RuntimeError) : World :=
  { w with reports := w.reports.push (.runtime e) }

/-- How the statements of a program run, from a world to how the program ends and the world behind
it. No statement returns a value, and the host never fails. -/
inductive Course (execute : Stmt UseId → Eval (Option Value)) :
    List (Stmt UseId) → World → Ending → World → Prop
  | done {w : World} : Course execute [] w .finished w
  | completes {s : Stmt UseId} {ss : List (Stmt UseId)} {w w₁ w₂ : World} {ending : Ending}
      (first : execute s w = .ok none w₁) (rest : Course execute ss w₁ ending w₂) :
      Course execute (s :: ss) w ending w₂
  | fails {s : Stmt UseId} {ss : List (Stmt UseId)} {w w₁ : World} {e : RuntimeError}
      (first : execute s w = .error (.failed e) w₁) (known : e.Known) :
      Course execute (s :: ss) w .finished (w₁.reporting e)
  | overflows {s : Stmt UseId} {ss : List (Stmt UseId)} {w w₁ : World}
      (first : execute s w = .error .overflow w₁) : Course execute (s :: ss) w .finished
        (w₁.reporting ⟨.endAt s.firstLine, .stackOverflow⟩)
  | goesOn {s : Stmt UseId} {ss : List (Stmt UseId)} {w w₁ : World}
      (first : execute s w = .error .outOfPatience w₁) :
      Course execute (s :: ss) w .outOfPatience w₁

/-- What a program makes of the end of its first statement. -/
theorem Eval.program_cons (execute : Stmt UseId → Eval (Option Value)) (s : Stmt UseId)
    (ss : List (Stmt UseId)) (w : World) :
    Eval.program execute (s :: ss) w =
      match execute s w with
      | .ok _ w₁ => Eval.program execute ss w₁
      | .error (.failed e) w₁ => .ok () (w₁.reporting e)
      | .error .overflow w₁ => .ok () (w₁.reporting ⟨.endAt s.firstLine, .stackOverflow⟩)
      | .error stop w₁ => .error stop w₁ := by
  rw [Eval.program, List.forM_eq_forM, List.forM_cons, tryCatch_eq, bind_eq, tryCatch_eq, bind_eq]
  cases execute s w with
  | ok r w₁ => exact (tryCatch_eq _ _ w₁).symm
  | error stop w₁ => cases stop <;> rfl

variable {natives : List Native} {p : Pair}

/-- A statement outside all blocks, in a session that agrees with one by names. -/
theorem Stands.statement_ends (hhost : FairHost False natives) (patience depth : Nat) {n i : Nat}
    {P : Accepted} {s : Stmt UseId} (hstands : Stands natives p n P [] globalChain .global)
    (hs : ScopedStmt P false [] [i] s) : ∃ q, Agree natives none q ∧
      ((Eval.statement patience depth globalChain s p.watched.world = .ok none q.watched.world ∧
          Stands natives q n P [] globalChain .global) ∨
        ∃ stop, Eval.statement patience depth globalChain s p.watched.world =
          .error stop q.watched.world ∧ Allowed False stop) := by
  have hafter : Scopes.after [] s = [] := by cases s <;> rfl
  have hmeets := (simulates hhost patience depth).statement hstands hs
  have herases := (Watch.erases_all patience depth).statement ⟨n, [i]⟩ globalChain s p.watched
  rw [hafter] at hmeets
  unfold Meets at hmeets
  rw [← herases]
  generalize Watch.statement patience depth ⟨n, [i]⟩ globalChain s p.watched = r at hmeets ⊢
  generalize Lexical.statement .plain patience depth .global s.erase p.lexical = r' at hmeets
  cases hmeets with
  | @ok q a b agree grows result =>
    obtain rfl : a = none := result.inFunction rfl
    have hstanding := result.standing rfl
    rw [hstanding.inside.2 rfl] at hstanding
    exact ⟨q, agree, Or.inl ⟨rfl, agree, grows.programs _ _ hstands.program, hstanding⟩⟩
  | @error q stop agree grows allowed => exact ⟨q, agree, Or.inr ⟨stop, rfl, allowed⟩⟩

/-- All errors that were reported are known ones. -/
def World.Sound (w : World) : Prop := ∀ e, Report.runtime e ∈ w.reports → e.Known

theorem World.Sound.reporting {w : World} (h : w.Sound) {e : RuntimeError} (he : e.Known) :
    (w.reporting e).Sound := by
  intro e' he'
  obtain he' | he' := Array.mem_push.1 he'
  · exact h e' he'
  · cases he'
    exact he

/-- The statements of an accepted program take their course. -/
theorem Stands.course (hhost : FairHost False natives) (patience depth : Nat) {n i : Nat}
    {P : Accepted} {ss : List (Stmt UseId)} (hstands : Stands natives p n P [] globalChain .global)
    (hbody : ScopedBody P false [] [] i ss) :
    ∃ ending w, Runs.request (Eval.program (Eval.statement patience depth globalChain) ss)
        p.watched.world = (ending, w) ∧
      Course (Eval.statement patience depth globalChain) ss p.watched.world ending w ∧
      w.Sound := by
  induction ss generalizing p i with
  | nil => exact ⟨_, _, rfl, .done, hstands.agree.surface.known⟩
  | cons s ss ih =>
    cases hbody with
    | cons first rest =>
      have hafter : Scopes.after [] s = [] := by cases s <;> rfl
      rw [hafter] at rest
      unfold Runs.request
      rw [Eval.program_cons]
      obtain ⟨q, hq, ⟨hok, hstands'⟩ | ⟨stop, herror, hallowed⟩⟩ :=
        hstands.statement_ends hhost patience depth first
      · obtain ⟨ending, w, hrequest, hcourse, hsound⟩ := ih hstands' rest
        rw [hok]
        exact ⟨ending, w, hrequest, .completes hok hcourse, hsound⟩
      · rw [herror]
        have hsound : q.watched.world.Sound := hq.surface.known
        cases stop with
        | failed e => exact ⟨_, _, rfl, .fails herror hallowed, hsound.reporting hallowed⟩
        | overflow =>
          exact ⟨_, _, rfl, .overflows herror, hsound.reporting ⟨by simp, by simp⟩⟩
        | outOfPatience => exact ⟨_, _, rfl, .goesOn herror, hsound⟩
        | fault f => exact hallowed.elim

/-- Whatever a session did before, an accepted source takes its course in it, and no error of an
unknown operator is ever reported. -/
theorem accepted_run_is_safe (hhost : FairHost False natives) (time : Float)
    {requests : List Request} (hrequests : ∀ r ∈ requests, r.Fair natives) (limits : Limits)
    (source : String) :
    let w := ((World.create natives time).serve requests).2
    w.Accepts limits source →
      Course (Eval.statement limits.patience limits.depth globalChain) (w.load limits source).1
        (w.load limits source).2 (w.run limits source).1 (w.run limits source).2 ∧
      (w.run limits source).2.Sound := by
  obtain ⟨q, hq, -, hworld, -⟩ := agree_after hhost time hrequests
  dsimp only
  rw [hworld]
  intro haccepts
  obtain ⟨ss, next, hlabel, hq₁, hprepared⟩ := hq.reset.labelled (limits.depth - 5) source
  have hload : q.watched.world.load limits source =
      (ss, { q.watched.world with
        hadError := false
        nextUse := next
        distances := (resolve limits.depth q.watched.world.distances ss).1.distances }) := by
    unfold World.load World.prepare
    rw [show (Stmt.labelAll _).run q.watched.world.nextUse = (ss, next) from hlabel]
  have hscopes := haccepts.scopes
  rw [hload] at hscopes
  obtain ⟨hstands, -, hbody⟩ := (hprepared haccepts.reading).accepted hq₁ hscopes
  obtain ⟨ending, w, hrequest, hcourse, hsound⟩ :=
    hstands.course hhost limits.patience limits.depth hbody
  have hrun : q.watched.world.run limits source = (ending, w) := by
    rw [World.run_eq, ← hrequest]
    unfold Runs.request
    rw [Eval.answer, haccepts.run, hload]
    rfl
  rw [hrun, hload]
  exact ⟨hcourse, hsound⟩

theorem closure_run_is_safe :
    let w := ((World.create Native.standard 0).serve closureRequests).2
    Course (Eval.statement 5 60 globalChain) (w.load ⟨60, 5⟩ closureSource).1
      (w.load ⟨60, 5⟩ closureSource).2 .finished (w.run ⟨60, 5⟩ closureSource).2 ∧
      (w.run ⟨60, 5⟩ closureSource).2.Sound := by
  have hending : (((World.create Native.standard 0).serve closureRequests).2.run ⟨60, 5⟩
      closureSource).1 = .finished := by decide +kernel
  obtain ⟨hcourse, hsound⟩ := accepted_run_is_safe (fairHost_standard False) 0 closureRequests_fair
    ⟨60, 5⟩ closureSource ⟨by decide, by decide +kernel, by decide +kernel⟩
  rw [hending] at hcourse
  exact ⟨hcourse, hsound⟩

end Scriptling
