-- Programs do the same on both sides. A source without static errors is an accepted program: its
-- distances are in use from then on, and its statements are in order. Its statements run one after
-- the other outside all blocks, and a runtime error is reported the same.
import Scriptling.Proofs.Grammar.Acceptance
import Scriptling.Proofs.Run.Calls
import Scriptling.Proofs.Scope.Concur
import Scriptling.Proofs.Scope.Errors

namespace Scriptling

open Lexical (CellId Names Site)
open Grammar (RegularStmt)

variable {natives : List Native} {mayFail : Prop} {patience depth : Nat} {p q : Pair}

/-- What is read without errors is regular. -/
theorem read_regular {limit : Nat} {text : String} (h : (read limit text).errors = []) :
    ∀ s ∈ (read limit text).statements, RegularStmt s := by
  have hparts := List.append_eq_nil_iff.1 h
  exact Parser.parse_regular (List.map_eq_nil_iff.1 hparts.2)

/-! ## Reports -/

theorem meets_reportStatic {i₀ : FrameId} (hp : Agree natives none p) (e : StaticError) :
    Meets natives mayFail i₀ p (Watch.lift (Eval.reportStatic e)) (Lexical.reportStatic e)
      fun q _ _ => q.watched.world.hadError = true := by
  have hknown : ∀ e', Report.runtime e' ∈ p.watched.world.reports.push (.static e) → e'.Known := by
    intro e' he'
    obtain he' | he' := Array.mem_push.1 he'
    · exact hp.surface.known e' he'
    · cases he'
  have hq := hp.onSurface
    (w := { p.watched.world with
      reports := p.watched.world.reports.push (.static e), hadError := true })
    (s := { p.lexical with reports := p.lexical.reports.push (.static e), hadError := true })
    { hp.surface with
      reports := congrArg (·.push (.static e)) hp.surface.reports
      hadError := rfl
      known := hknown }
    rfl rfl rfl rfl rfl rfl
  exact meets_step rfl rfl hq (grows_refl _ _) rfl

theorem meets_reportRuntime {i₀ : FrameId} (hp : Agree natives none p) {e : RuntimeError}
    (he : e.Known) :
    Meets natives mayFail i₀ p (Watch.lift (Eval.reportRuntime e)) (Lexical.reportRuntime e)
      Any := by
  have hknown : ∀ e', Report.runtime e' ∈ p.watched.world.reports.push (.runtime e) → e'.Known := by
    intro e' he'
    obtain he' | he' := Array.mem_push.1 he'
    · exact hp.surface.known e' he'
    · cases he'
      exact he
  have hq := hp.onSurface
    (w := { p.watched.world with reports := p.watched.world.reports.push (.runtime e) })
    (s := { p.lexical with reports := p.lexical.reports.push (.runtime e) })
    { hp.surface with
      reports := congrArg (·.push (.runtime e)) hp.surface.reports
      known := hknown }
    rfl rfl rfl rfl rfl rfl
  exact meets_step rfl rfl hq (grows_refl _ _) trivial

/-- All errors are reported. Where there is none, nothing happens. -/
theorem meets_reportAll {i₀ : FrameId} (hp : Agree natives none p) (errors : List StaticError) :
    Meets natives mayFail i₀ p (Watch.lift (errors.forM Eval.reportStatic))
      (errors.forM Lexical.reportStatic)
      fun q _ _ => (errors = [] ∧ q = p) ∨ q.watched.world.hadError = true := by
  induction errors generalizing p with
  | nil => exact meets_pure hp (Or.inl ⟨rfl, rfl⟩)
  | cons e errors ih =>
    rw [List.forM, List.forM, Watch.lift_bind]
    refine (meets_reportStatic hp e).bind fun q _ _ hq _ hreported => ?_
    refine (ih hq).mono fun q₁ _ _ _ _ hmore => Or.inr ?_
    obtain ⟨-, rfl⟩ | hmore := hmore
    · exact hreported
    · exact hmore

/-! ## Statements of a program -/

/-- The statements of a program stand outside all blocks. -/
theorem meets_inTurn (h : Simulates natives mayFail patience depth) {n i : Nat} {P : Accepted}
    {ss : List (Stmt UseId)} (hstands : Stands natives p n P [] globalChain .global)
    (hbody : ScopedBody P false [] [] i ss) :
    Meets natives mayFail 0 p
      (Watch.inTurn (fun i s => Watch.statement patience depth ⟨n, [i]⟩ globalChain s) i ss)
      ((Stmt.eraseAll ss).forM fun s =>
        Runs.atTop s.firstLine (do let _ ← Lexical.statement .plain patience depth .global s))
      Any := by
  induction ss generalizing p i with
  | nil => exact meets_pure hstands.agree trivial
  | cons s ss ih =>
    cases hbody with
    | cons first rest =>
      have hafter : Scopes.after [] s = [] := by cases s <;> rfl
      rw [hafter] at rest
      rw [Stmt.eraseAll, List.forM, s.firstLine_erase]
      have hfirst : Meets natives mayFail 0 p
          (do let _ ← Watch.statement patience depth ⟨n, [i]⟩ globalChain s)
          (do let _ ← Lexical.statement .plain patience depth .global s.erase)
          fun q _ _ => Stands natives q n P [] globalChain .global := by
        refine (h.statement hstands first).bind fun q r r' hq hgrows hr => ?_
        have hstanding := hr.standing (hr.inFunction rfl)
        rw [hafter] at hstanding
        rw [hstanding.inside.2 rfl] at hstanding
        exact meets_pure hq ⟨hq, hgrows.programs _ _ hstands.program, hstanding⟩
      refine (hfirst.atTop s.firstLine).bind fun q _ _ _ _ hstands' => ?_
      exact ih hstands' rest

theorem meets_program (h : Simulates natives mayFail patience depth) {n : Nat} {P : Accepted}
    {ss : List (Stmt UseId)} (hstands : Stands natives p n P [] globalChain .global)
    (hbody : ScopedBody P false [] [] 0 ss) :
    Meets natives mayFail 0 p
      (Watch.program (fun i s => Watch.statement patience depth ⟨n, [i]⟩ globalChain s) ss)
      (Lexical.program (fun s => do let _ ← Lexical.statement .plain patience depth .global s)
        (Stmt.eraseAll ss)) Any := by
  refine (meets_inTurn h hstands hbody).tryCatch fun q stop hq _ hallowed => ?_
  cases stop with
  | failed e => exact meets_reportRuntime hq hallowed
  | _ => exact meets_throw hq hallowed

/-! ## Sources -/

theorem Watch.lift_room (depth n : Nat) : Watch.lift (Eval.room depth n) = Runs.room depth n := by
  unfold Eval.room Runs.room
  split <;> rfl

/-- A regular program is resolved to its end: its distances are recorded, and its errors
reported. -/
theorem Eval.resolve_eq (depth : Nat) (ss : List (Stmt UseId)) (w : World) :
    Eval.resolve depth ss w =
      (do
        (Scriptling.resolve depth w.distances ss).1.errors.toList.forM Eval.reportStatic
        match (Scriptling.resolve depth w.distances ss).2 with
        | some f => throw (.fault f)
        | none => return () : Eval Unit)
      { w with distances := (Scriptling.resolve depth w.distances ss).1.distances } := rfl

theorem Eval.resolve_regular {ss : List (Stmt UseId)} (hss : ∀ s ∈ ss, RegularStmt s.erase)
    (depth : Nat) (w : World) :
    Eval.resolve depth ss w =
      (Scriptling.resolve depth w.distances ss).1.errors.toList.forM Eval.reportStatic
        { w with distances := (Scriptling.resolve depth w.distances ss).1.distances } := by
  have hnone : (Scriptling.resolve depth w.distances ss).2 = none := by
    obtain ⟨f, hf⟩ := Resolve.program_ends depth hss ⟨w.distances, #[]⟩
    unfold Scriptling.resolve
    rw [hf]
  rw [Eval.resolve_eq, hnone, bind_eq]
  generalize List.forM _ Eval.reportStatic _ = r
  cases r <;> rfl

/-- The labels of a new program are not in use, and what is recorded for them leaves the distances
of the programs before alone. -/
theorem Tabled.resolve {programs : Array Accepted} {n next : Nat} {distances : Distances}
    (h : Tabled programs n distances) {ss : List (Stmt UseId)}
    (hnumbers : Numbers n next (Resolve.labelsInAll ss)) (depth : Nat) :
    Tabled programs next (Scriptling.resolve depth distances ss).1.distances := by
  refine h.extend hnumbers.1 fun l hl => resolve_kept depth distances ss fun hmem => ?_
  have hrange := hnumbers.mem hmem
  omega

theorem Eval.label_eq {raw : List RawStmt} {w : World} {ss : List (Stmt UseId)} {next : UseId}
    (h : (Stmt.labelAll raw).run w.nextUse = (ss, next)) :
    Eval.label raw w = .ok ss { w with nextUse := next } := by
  show EStateM.Result.ok ((Stmt.labelAll raw).run w.nextUse).1
    { w with nextUse := ((Stmt.labelAll raw).run w.nextUse).2 } = _
  rw [h]

/-- A program that was read and labelled, where the labels before it end at `n`. -/
structure Prepared (p : Pair) (n : UseId) (raw : List RawStmt) (ss : List (Stmt UseId)) : Prop where
  labelled : (Stmt.labelAll raw).run n = (ss, p.watched.world.nextUse)
  erased : Stmt.eraseAll ss = raw
  regular : ∀ s ∈ ss, RegularStmt s.erase
  numbers : Numbers n p.watched.world.nextUse (Resolve.labelsInAll ss)
  tabled : Tabled p.watched.programs n p.watched.world.distances

/-- The program as it comes to the walk. -/
def Pair.program (p : Pair) (depth : Nat) (ss : List (Stmt UseId)) : Accepted :=
  ⟨depth, p.watched.world.distances, ss, p.watched.world.nextUse⟩

/-- The distances of the program are recorded. -/
def Pair.resolved (p : Pair) (depth : Nat) (ss : List (Stmt UseId)) : Pair :=
  p.retable p.watched.world.nextUse (p.program depth ss).found.distances

section Prepared

variable {n : UseId} {raw : List RawStmt} {ss : List (Stmt UseId)}

theorem Prepared.errors (h : Prepared p n raw ss) (depth : Nat) :
    (p.program depth ss).found.errors.toList = Lexical.scopeErrors depth raw := by
  have halike := resolve_alike depth p.watched.world.distances ∅ raw n 0
  rw [h.labelled] at halike
  exact congrArg Array.toList halike

theorem Prepared.resolved (h : Prepared p n raw ss) (hp : Agree natives none p) (depth : Nat) :
    Agree natives none (p.resolved depth ss) := hp.retable (h.tabled.resolve h.numbers depth)

/-- A program without errors is accepted, and all of it is in order. -/
theorem Prepared.accepted (h : Prepared p n raw ss) (hp : Agree natives none p)
    (hclean : (p.program depth ss).found.errors = #[]) :
    Stands natives ((p.resolved depth ss).accept (p.program depth ss)) p.watched.programs.size
        (p.program depth ss) [] globalChain .global ∧
      Grows 0 (p.resolved depth ss).core
        ((p.resolved depth ss).accept (p.program depth ss)).core ∧
      ScopedBody (p.program depth ss) false [] [] 0 ss := by
  obtain ⟨f, hends⟩ := Resolve.program_ends depth h.regular ⟨p.watched.world.distances, #[]⟩
  have hbody := Accepted.scopedBody (P := p.program depth ss) hends hclean h.regular
    h.numbers.nodup (fun l hl => (h.numbers.mem hl).2)
    fun l hl => h.tabled.fresh l (h.numbers.mem hl).1
  obtain ⟨hq, hgrows⟩ := (h.resolved hp depth).accept (P := p.program depth ss) rfl rfl
  refine ⟨⟨hq, Array.getElem?_push_size, ?_⟩, hgrows, hbody⟩
  exact ⟨.global, fun scope hscope => (by cases hscope), trivial, by simp⟩

/-- The program is checked, and executed if no error is found. -/
theorem Prepared.meets (h : Prepared p n raw ss)
    (hsimulates : Simulates natives mayFail patience depth) (hp : Agree natives none p)
    (hstart : p.watched.world.hadError = false) :
    Meets natives mayFail 0 p
      (do
        Watch.lift (Eval.resolve depth ss)
        if (← Watch.lift get).hadError then return
        let k ← Watch.accept (p.program depth ss)
        Watch.program (fun i s => Watch.statement patience depth ⟨k, [i]⟩ globalChain s) ss)
      (do
        (Lexical.scopeErrors depth raw).forM Lexical.reportStatic
        if (← get).hadError then return
        Lexical.program (fun s => do let _ ← Lexical.statement .plain patience depth .global s) raw)
      Any := by
  have hresolve : Meets natives mayFail 0 p (Watch.lift (Eval.resolve depth ss))
      ((Lexical.scopeErrors depth raw).forM Lexical.reportStatic) fun q _ _ =>
        (Lexical.scopeErrors depth raw = [] ∧ q = p.resolved depth ss) ∨
          q.watched.world.hadError = true := by
    refine (meets_reportAll (h.resolved hp depth) _).leap ?_ rfl rfl
    rw [Watch.lift, Eval.resolve_regular h.regular, ← h.errors]
    rfl
  refine hresolve.bind fun q _ _ hq _ hchecked => ?_
  refine Meets.left (q := q) rfl rfl ?_ fun _ => id
  refine Meets.right (q := q) rfl rfl ?_ fun _ => id
  show Meets natives mayFail 0 _ (if q.watched.world.hadError then _ else _)
    (if q.lexical.hadError then _ else _) Any
  rw [← hq.surface.hadError]
  obtain ⟨herrors, rfl⟩ | hhad := hchecked
  case inr =>
    rw [hhad]
    exact meets_pure hq trivial
  have hclean : (p.program depth ss).found.errors = #[] := by
    rw [← Array.toList_eq_nil_iff, h.errors]
    exact herrors
  obtain ⟨hstands, hgrows, hbody⟩ := h.accepted hp hclean
  have hfalse : (p.resolved depth ss).watched.world.hadError = false := hstart
  rw [hfalse]
  refine Meets.left (q := (p.resolved depth ss).accept (p.program depth ss)) rfl rfl ?_
    fun c hc => hgrows.trans hc
  rw [← h.erased]
  exact meets_program hsimulates hstands hbody

end Prepared

/-- A source is labelled. If it was read without errors, it is a program like that. -/
theorem Agree.labelled (hp : Agree natives none p) (limit : Nat) (text : String) :
    ∃ ss next,
      (Stmt.labelAll (read limit text).statements).run p.watched.world.nextUse = (ss, next) ∧
      Agree natives none (p.retable next p.watched.world.distances) ∧
      ((read limit text).errors = [] →
        Prepared (p.retable next p.watched.world.distances) p.watched.world.nextUse
          (read limit text).statements ss) := by
  obtain ⟨ss, next, hlabel, herase, hnumbers⟩ :=
    Stmt.labelAll_labels (read limit text).statements p.watched.world.nextUse
  refine ⟨ss, next, hlabel, hp.retable (hp.tabled.extend hnumbers.1 fun _ _ => rfl),
    fun h => ⟨hlabel, herase, Resolve.regular_all ?_, hnumbers, hp.tabled⟩⟩
  rw [herase]
  exact read_regular h

theorem meets_source (h : Simulates natives mayFail patience depth) (hp : Agree natives none p)
    (hstart : p.watched.world.hadError = false) (text : String) :
    Meets natives mayFail 0 p
      (Watch.source depth (fun n i s => Watch.statement patience depth ⟨n, [i]⟩ globalChain s) text)
      (Lexical.source depth
        (fun s => do let _ ← Lexical.statement .plain patience depth .global s) text)
      Any := by
  unfold Watch.source Lexical.source
  rw [Watch.lift_room]
  refine (meets_room hp _ _).bind fun q _ _ _ _ heq => ?_
  subst heq
  refine (meets_reportAll hp _).bind fun q _ _ hq _ hread => ?_
  obtain ⟨ss, next, hlabel, hq₁, hprepared⟩ := hq.labelled (depth - 5) text
  refine Meets.left (a := ss) (q := q.retable next q.watched.world.distances) ?_ rfl ?_ fun _ => id
  · rw [Watch.lift, Eval.label_eq hlabel]
    rfl
  refine Meets.left (q := q.retable next q.watched.world.distances) rfl rfl ?_ fun _ => id
  refine Meets.right (q := q.retable next q.watched.world.distances) rfl rfl ?_ fun _ => id
  show Meets natives mayFail 0 _ (if q.watched.world.hadError then _ else _)
    (if q.lexical.hadError then _ else _) Any
  rw [← hq.surface.hadError]
  obtain ⟨herrors, rfl⟩ | hhad := hread
  case inr =>
    rw [hhad]
    exact meets_pure hq₁ trivial
  rw [hstart]
  exact (hprepared herrors).meets h hq₁ hstart

/-- Errors of earlier sources are no longer remembered. -/
def Pair.reset (p : Pair) : Pair :=
  ⟨{ p.watched with world := { p.watched.world with hadError := false } },
    { p.lexical with hadError := false }, p.link⟩

theorem Agree.reset (hp : Agree natives none p) : Agree natives none p.reset :=
  hp.onSurface { hp.surface with hadError := rfl } rfl rfl rfl rfl rfl rfl

/-- A source is run, or something that is none. -/
theorem meets_run (h : Simulates natives mayFail patience depth) (hp : Agree natives none p)
    {v : Value} (hv : (∃ s, v = .text s) ∨ mayFail) :
    Meets natives mayFail 0 p
      (Watch.run depth (fun n i s => Watch.statement patience depth ⟨n, [i]⟩ globalChain s) v)
      (Lexical.run depth (fun s => do let _ ← Lexical.statement .plain patience depth .global s) v)
      Any := by
  have hreset : Meets natives mayFail 0 p
      (Watch.lift (modify fun w => { w with hadError := false }))
      (modify fun s => { s with hadError := false }) fun q _ _ => q = p.reset :=
    meets_step rfl rfl hp.reset (grows_refl _ _) rfl
  refine hreset.bind fun q _ _ hq _ heq => ?_
  subst heq
  cases v with
  | text s => exact meets_source h hq rfl s
  | _ =>
    refine meets_throw hq ?_
    obtain ⟨s, hs⟩ | hfail := hv
    · cases hs
    · exact hfail

/-! ## The whole of evaluation -/

theorem FairCall.mayFail_of_plain {f : Value} {count : Nat} (h : FairCall mayFail f count)
    (hf : f.callable? = none) : mayFail := by
  cases f with
  | function c => cases hf
  | native c => cases hf
  | _ => exact h

theorem meets_invoke (hhost : FairHost mayFail natives)
    (h : ∀ d < depth, Simulates natives mayFail patience d) (hp : Agree natives none p) {f : Value}
    {vs : List Value} (hf : Genuine natives p.watched.world.code f)
    (hvs : ∀ v ∈ vs, Genuine natives p.watched.world.code v)
    (hfair : FairCall mayFail f vs.length) :
    Meets natives mayFail 0 p (Watch.invoke patience depth f vs)
      (Lexical.invoke .plain patience depth f vs) (SameValue natives) := by
  obtain hlt | hle := Nat.lt_or_ge depth 4
  · rw [Watch.invoke_of_lt hlt, Lexical.invoke_of_lt hlt]
    exact meets_throw hp trivial
  obtain ⟨depth, rfl⟩ := Nat.exists_eq_add_of_le' hle
  rw [Watch.invoke, Lexical.invoke]
  -- what is called decides what the two sides find under its number
  cases hf with
  | plain hplain =>
    refine Meets.left (a := none) (q := p) ?_ rfl ?_ fun _ => id
    · rw [Watch.lift, Eval.codeOf?, hplain]
      rfl
    refine Meets.right (b := none) (q := p) ?_ rfl ?_ fun _ => id
    · rw [Lexical.codeOf?, hplain]
      rfl
    exact meets_throw hp (hfair.mayFail_of_plain hplain)
  | @function c ps ss chain hcode arity =>
    obtain ⟨names, hlexical, hmeets⟩ :=
      meets_closure (h (depth + 2) (by omega)) hp hcode (hfair.trans arity.symm) hvs
    refine Meets.left (a := some (.closure ps ss chain)) (q := p) ?_ rfl ?_ fun _ => id
    · rw [← hcode]
      rfl
    refine Meets.right (b := some (.closure ps (Stmt.eraseAll ss) names)) (q := p) ?_ rfl ?_
      fun _ => id
    · rw [← hlexical]
      rfl
    exact hmeets
  | @native c n hn arity =>
    obtain ⟨hcode, hlexical⟩ := hp.code.native c.id n hn
    refine Meets.left (a := some (.host n.act)) (q := p) ?_ rfl ?_ fun _ => id
    · rw [← hcode]
      rfl
    refine Meets.right (b := some (.host n.act)) (q := p) ?_ rfl ?_ fun _ => id
    · rw [← hlexical]
      rfl
    have hcount : mayFail ∨ vs.length = n.arity := hfair.imp_right (·.trans arity.symm)
    refine meets_perform meets_readClock (h (depth + 2) (by omega)).invoke
      (fun hq hv => meets_run (h depth (by omega)) hq hv)
      (hhost n (List.mem_of_getElem? hn) vs hcount) hp fun v hv => hv.genuine hvs

/-- Evaluation by distances is evaluation by names. -/
theorem simulates (hhost : FairHost mayFail natives) (patience depth : Nat) :
    Simulates natives mayFail patience depth := by
  induction depth using Nat.strongRecOn with
  | _ depth ih =>
    refine ⟨?_, ?_, ?_, ?_, fun hp hf hvs => meets_apply ih hp hf hvs,
      fun hp hf hvs hfair => meets_invoke hhost ih hp hf hvs hfair⟩
    · intro p n P S path chain names e hsees he
      cases depth with
      | zero => exact meets_throw hsees.agree trivial
      | succ depth => exact meets_expression (ih depth (Nat.lt_succ_self depth)) hsees he
    · intro p n P S path chain names es hsees hes
      cases depth with
      | zero => exact meets_throw hsees.agree trivial
      | succ depth =>
        refine meets_inOrder (ih depth (Nat.lt_succ_self depth)) hsees fun j e hj => ?_
        rw [Nat.zero_add]
        exact hes j e hj
    · intro p n P b S path chain site s hstands hs
      cases depth with
      | zero => exact meets_throw hstands.agree trivial
      | succ depth => exact meets_statement (ih depth (Nat.lt_succ_self depth)) hstands hs
    · intro p n P b S path chain site ss hstands hss
      cases depth with
      | zero => exact meets_throw hstands.agree trivial
      | succ depth => exact meets_sequence (ih depth (Nat.lt_succ_self depth)) hstands hss

end Scriptling
