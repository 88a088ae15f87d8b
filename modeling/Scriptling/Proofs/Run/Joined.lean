-- A script does what a shell does. Two accepted sources, one below the other, are read, labelled
-- and resolved part by part; so running them as one source comes to running the first and then the
-- second, where the tokens of the second stand further down.
import Scriptling.Proofs.Grammar.Composition
import Scriptling.Proofs.Run.Lowered

namespace Scriptling

variable {base base' : List Report} {w w' : World} {limits : Limits} {above below : String}

/-! ## Reading and resolving both -/

theorem read_quiet_iff {limit : Nat} {source : String} : (read limit source).errors = [] ↔
    (lex source).errors = [] ∧ (parse limit (lex source).tokens).complaints = [] := by
  unfold read
  rw [List.append_eq_nil_iff, List.map_eq_nil_iff]

/-- The line on which a token of a source stands, if the source stands further down. -/
def lineDown (lines : Nat) (line : Int) : Int := if 0 < line then line + lines else line

/-- Further down, a source is read quietly if it is, and as trees alike. -/
theorem parse_down {limit : Nat} {source : String}
    (h : (parse limit (lex source).tokens).complaints = []) (lines : Nat) :
    (parse limit ((lex source).tokens.map (Token.down lines))).complaints = [] ∧
      List.Forall₂ (LikeStmt (fun t t' => t' = t.moved (lineDown lines)) Parser.NoLabel)
        (parse limit (lex source).tokens).statements
        (parse limit ((lex source).tokens.map (Token.down lines))).statements := by
  have hdown : (lex source).tokens.map (Token.down lines) =
      (lex source).tokens.map (Token.moved (lineDown lines)) := by
    refine List.map_congr_left fun t ht => ?_
    unfold Token.moved lineDown
    rw [if_pos (lex_line_pos t ht)]
    rfl
  rw [hdown]
  exact Parser.parse_like (lookalike_moved rfl) (forall₂_moved _ _) h

/-- The statements of the second source, where it stands below the first. -/
def statementsBelow (limit : Nat) (above below : String) : List RawStmt :=
  (parse limit ((lex below).tokens.map (Token.down (linesAbove above)))).statements

/-- The statements of both sources are read in turn, those of the second from further down. -/
theorem read_joined {limit : Nat} (h : (read limit above).errors = [])
    (h' : (read limit below).errors = []) : read limit (joined above below) =
      ⟨(read limit above).statements ++ statementsBelow limit above below, []⟩ := by
  obtain ⟨hlex, hquiet⟩ := read_quiet_iff.1 h
  obtain ⟨hlex', hquiet'⟩ := read_quiet_iff.1 h'
  obtain ⟨herrors, htokens⟩ := lex_joined hlex hlex'
  obtain ⟨hdown, -⟩ := parse_down hquiet' (linesAbove above)
  unfold read
  dsimp only
  rw [herrors, htokens, parse_append _ _ _ (Parser.not_else_of_quiet hdown) (Or.inl hquiet),
    hquiet, hdown]
  rfl

theorem Stmt.labelAll_append {raw raw' : List RawStmt} {ss ss' : List (Stmt UseId)}
    {n m next : Nat} (h : (Stmt.labelAll raw).run n = (ss, m))
    (h' : (Stmt.labelAll raw').run m = (ss', next)) :
    (Stmt.labelAll (raw ++ raw')).run n = (ss ++ ss', next) := by
  induction raw generalizing n ss with
  | nil =>
    rw [Stmt.labelAll] at h
    cases h
    exact h'
  | cons s raw ih =>
    rw [Stmt.labelAll] at h
    cases h
    rw [List.cons_append, Stmt.labelAll]
    exact run_bind_of rfl (run_bind_of (ih rfl) rfl)

/-- Behind statements in order, other ones get the labels and the distances that they get alone. -/
theorem World.prepare_append {depth : Nat} {raw : List RawStmt}
    (hregular : ∀ s ∈ (w.prepare depth raw).1, Grammar.RegularStmt s.erase)
    (hclean : (Scriptling.resolve depth w.distances (w.prepare depth raw).1).1.errors = #[])
    (raw' : List RawStmt) :
    let v := (w.prepare depth raw).2
    w.prepare depth (raw ++ raw') =
        ((w.prepare depth raw).1 ++ (v.prepare depth raw').1, (v.prepare depth raw').2) ∧
      Scriptling.resolve depth w.distances (w.prepare depth (raw ++ raw')).1 =
        Scriptling.resolve depth v.distances (v.prepare depth raw').1 := by
  obtain ⟨ss, m, hlabel, -⟩ := Stmt.labelAll_labels raw w.nextUse
  obtain ⟨ss', next, hlabel', -⟩ := Stmt.labelAll_labels raw' m
  rw [World.prepare_of_label hlabel] at hregular hclean ⊢
  intro v
  have hsecond := World.prepare_of_label (w := v) hlabel' depth
  rw [hsecond, World.prepare_of_label (Stmt.labelAll_append hlabel hlabel'),
    resolve_append hregular hclean]
  exact ⟨rfl, rfl⟩

/-- Below an accepted source another one is loaded as it is behind it, but from further down. -/
theorem World.Accepts.load_joined (h : w.Accepts limits above) (h' : w.Accepts limits below) :
    let v := (w.load limits above).2
    let second := v.prepare limits.depth (statementsBelow (limits.depth - 5) above below)
    w.load limits (joined above below) = ((w.load limits above).1 ++ second.1, second.2) ∧
      Scriptling.resolve limits.depth w.distances (w.load limits (joined above below)).1 =
        Scriptling.resolve limits.depth v.distances second.1 := by
  unfold World.load
  rw [read_joined h.reading h'.reading]
  exact World.prepare_append h.regular h.scopes _

/-- Two accepted sources are accepted as one. -/
theorem World.Accepts.joined (h : w.Accepts limits above) (h' : w.Accepts limits below)
    (hfresh : w.Fresh) : w.Accepts limits (joined above below) := by
  refine ⟨h.room, ?_, ?_⟩
  · rw [read_joined h.reading h'.reading]
  · obtain ⟨-, hlike⟩ := parse_down (read_quiet_iff.1 h'.reading).2 (linesAbove above)
    obtain ⟨-, hsize⟩ := prepare_like (lookalike_moved rfl) hfresh
      (hfresh.prepare limits.depth (read (limits.depth - 5) above).statements) limits.depth hlike
    have hnone : (Scriptling.resolve limits.depth w.distances
        (w.load limits below).1).1.errors.size = 0 := by
      rw [h'.scopes]
      rfl
    rw [(h.load_joined h').2]
    exact Array.eq_empty_of_size_eq_zero (hsize.symm.trans hnone)

/-! ## Running both -/

/-- What stops the statements of a source before all are executed, if anything does. -/
def World.stop? (w : World) (limits : Limits) (source : String) : Option Stop :=
  match Eval.topLevel limits (w.load limits source).1 (w.load limits source).2 with
  | .ok .. => none
  | .error stop _ => some stop

theorem World.ok_of_stop? {source : String} (h : w.stop? limits source = none) :
    ∃ u, Eval.topLevel limits (w.load limits source).1 (w.load limits source).2 = .ok () u := by
  unfold World.stop? at h
  split at h
  next a u hrun => exact ⟨u, hrun⟩
  next => cases h

/-- How a program ends depends on how its statements end only. -/
theorem request_reporting {x y : Eval Unit} (h : x w = y w') :
    Runs.request (Runs.reporting Eval.reportRuntime x) w =
      Runs.request (Runs.reporting Eval.reportRuntime y) w' := by
  unfold Runs.request Runs.reporting
  rw [tryCatch_eq, tryCatch_eq, h]

theorem World.Accepts.request {source : String} (h : w.Accepts limits source) :
    w.run limits source = Runs.request (Runs.reporting Eval.reportRuntime
      (Eval.topLevel limits (w.load limits source).1)) (w.load limits source).2 :=
  h.runTokens

/-- The statements of an accepted source do the same where those of others are prepared too. -/
theorem World.Accepts.inStep_prepared {source : String} (h : w.Accepts limits source)
    (hself : Like Eq base base' w w) (raw' : List RawStmt) :
    InStep Eq base base' (w.load limits source).2
      ((w.load limits source).2.prepare limits.depth raw').2
      (Eval.topLevel limits (w.load limits source).1)
      (Eval.topLevel limits (w.load limits source).1) := by
  have hraw := read_like lookalike_eq (fun _ _ => rfl) h.reading
  obtain ⟨hss, -⟩ := prepare_like lookalike_eq hself.fresh hself.fresh limits.depth hraw
  have hlater := (w.load limits source).2.prepare_later limits.depth raw'
  exact inStep_topLevel lookalike_eq limits
    (((hself.prepareLeft _ _).prepareRight _ _).prepareRight _ _)
    (hss.imp fun _ _ hs => LikeStmt.later (later_refl _) hlater hs)

theorem run_stopped (h : w.Accepts limits above) (h' : w.Accepts limits below)
    (hself : Like Eq base base' w w) {stop : Stop} (hstop : w.stop? limits above = some stop) :
    (w.run limits above).1 = (w.run limits (joined above below)).1 ∧
      Like Eq base base' (w.run limits above).2 (w.run limits (joined above below)).2 := by
  have hfirst :=
    h.inStep_prepared hself (statementsBelow (limits.depth - 5) above below)
  rw [h.request, (h.joined h' hself.fresh).request, (h.load_joined h').1, Eval.topLevel_append]
  -- the second part is not reached
  refine (InStep.reporting ?_).request
  unfold InStep at hfirst ⊢
  unfold World.stop? at hstop
  rw [bind_eq]
  generalize Eval.topLevel limits (w.load limits above).1 (w.load limits above).2 = r
    at hfirst hstop ⊢
  generalize Eval.topLevel limits (w.load limits above).1
    ((w.load limits above).2.prepare limits.depth _).2 = r' at hfirst ⊢
  cases hfirst with
  | ok => cases hstop
  | error stops like later later' => exact .error stops like later later'

theorem run_completed (h : w.Accepts limits above) (h' : w.Accepts limits below)
    (hself : Like Eq base base w w) (hstop : w.stop? limits above = none) :
    let first := w.run limits above
    let lowered := first.2.runTokens limits ((lex below).tokens.map (Token.down (linesAbove above)))
    let script := w.run limits (joined above below)
    lowered.1 = script.1 ∧ Like Eq base base lowered.2 script.2 := by
  obtain ⟨u, hu⟩ := World.ok_of_stop? hstop
  obtain ⟨u', hu', hlike, -, hlater⟩ := (h.inStep_prepared hself
    (statementsBelow (limits.depth - 5) above below)).completes hu
  have hfirst : w.run limits above = (.finished, u) := by
    have hdone : Eval.topLevel limits (w.load limits above).1 (w.load limits above).2 =
        (pure () : Eval Unit) u := hu
    exact h.request.trans (request_reporting hdone)
  have hscript : w.run limits (joined above below) = Runs.request (Runs.reporting
      Eval.reportRuntime (Eval.topLevel limits ((w.load limits above).2.prepare limits.depth
        (statementsBelow (limits.depth - 5) above below)).1)) u' := by
    rw [(h.joined h' hself.fresh).request, (h.load_joined h').1, Eval.topLevel_append]
    exact request_reporting (bind_of_ok hu')
  rw [hfirst, hscript]
  -- the second part gets other labels alone, with the same distances
  obtain ⟨hss, -⟩ := prepare_like lookalike_eq hlike.fresh
    (hself.fresh.prepare limits.depth (read (limits.depth - 5) above).statements) limits.depth
    (LikeStmt.reflAll (fun _ => rfl) (fun _ => trivial)
      (statementsBelow (limits.depth - 5) above below))
  exact (inStep_topLevel lookalike_eq limits (hlike.prepareLeft limits.depth _)
    (hss.imp fun _ _ hs => LikeStmt.later (later_refl _) hlater hs)).reporting.request

/-- A runtime error that is reported shows. -/
theorem World.runtimeErrors_ne {v : World} {new : List Report} {e : RuntimeError}
    (h : v.reports.toList = w.reports.toList ++ new ++ [.runtime e]) :
    v.runtimeErrors ≠ w.runtimeErrors := by
  intro hsame
  have hlength := congrArg List.length hsame
  unfold World.runtimeErrors at hlength
  rw [h, List.filterMap_append, List.filterMap_append, List.length_append,
    List.length_append] at hlength
  have hone : ([.runtime e] : List Report).filterMap Report.runtime? = [e] := rfl
  rw [hone, List.length_singleton] at hlength
  omega

/-- Where a program comes to its end without an error that was reported, nothing stopped it. -/
theorem World.Accepts.stop?_of_quiet {source : String} (h : w.Accepts limits source)
    (hself : Like Eq base base' w w) (hfinished : (w.run limits source).1 = .finished)
    (hquiet : (w.run limits source).2.runtimeErrors = w.runtimeErrors) :
    w.stop? limits source = none := by
  have hstep := h.inStep_prepared hself.rebase []
  rw [h.request] at hfinished hquiet
  unfold World.stop?
  unfold InStep at hstep
  unfold Runs.request Runs.reporting at hfinished hquiet
  rw [tryCatch_eq] at hfinished hquiet
  generalize Eval.topLevel limits _ (w.load limits source).2 = r at hstep hfinished hquiet ⊢
  generalize Eval.topLevel limits _ ((w.load limits source).2.prepare limits.depth []).2 = r'
    at hstep
  cases r with
  | ok => rfl
  | error stop v =>
    cases stop with
    | failed e =>
      -- the error is reported behind all that was reported before
      obtain ⟨new, hreports⟩ : ∃ new, v.reports.toList = w.reports.toList ++ new := by
        cases hstep with
        | error stops like =>
          obtain ⟨new, -, hnew, -, -⟩ := like.reports
          exact ⟨new, hnew⟩
      have hpushed : (v.reports.push (.runtime e)).toList =
          w.reports.toList ++ new ++ [.runtime e] := by
        rw [Array.toList_push, hreports]
      exact absurd hquiet
        (World.runtimeErrors_ne (v := { v with reports := v.reports.push (.runtime e) }) hpushed)
    | overflow => cases hfinished
    | fault f => cases hfinished
    | outOfPatience => cases hfinished

/-- An error that stops a program is the last thing reported. -/
theorem World.Accepts.reported_of_failed {source : String} (h : w.Accepts limits source)
    {e : RuntimeError} (hstop : w.stop? limits source = some (.failed e)) :
    (w.run limits source).1 = .finished ∧
      (w.run limits source).2.reports.back? = some (.runtime e) := by
  rw [h.request]
  unfold World.stop? at hstop
  unfold Runs.request Runs.reporting
  rw [tryCatch_eq]
  generalize Eval.topLevel limits _ (w.load limits source).2 = r at hstop ⊢
  cases r with
  | ok => cases hstop
  | error stop v =>
    cases hstop
    exact ⟨rfl, Array.back?_push⟩

/-- Whatever a session did before, two accepted sources are accepted as one. If nothing stops the
first, running them as one comes to running one after the other, the second from further down: its
marked run tells which of its errors are met in its own code, and these are reported further down.
If something stops the first, it comes to running the first alone, now and later. -/
theorem script_agrees_with_shell (natives : List Native) (time : Float) (requests : List Request)
    (limits : Limits) (above below : String) :
    let w := ((World.create natives time).serve requests).2
    w.Accepts limits above → w.Accepts limits below →
      let first := w.run limits above
      let second := first.2.run limits below
      let script := w.run limits (joined above below)
      let ts := (lex below).tokens
      let lowered := first.2.runTokens limits (ts.map (Token.down (linesAbove above)))
      let marked := first.2.runTokens limits (ts.map Token.marked)
      w.Accepts limits (joined above below) ∧
        (first.1 = .finished → first.2.runtimeErrors = w.runtimeErrors →
          w.stop? limits above = none) ∧
        (∀ e, w.stop? limits above = some (.failed e) →
          first.1 = .finished ∧ first.2.reports.back? = some (.runtime e)) ∧
        (w.stop? limits above = none →
          script.1 = second.1 ∧ script.2.printed = second.2.printed ∧
            script.2.heap = second.2.heap ∧ script.2.globals = second.2.globals ∧
            (script.1 = lowered.1 ∧ script.2.reports = lowered.2.reports ∧
              ∀ later, script.2.responses later = lowered.2.responses later) ∧
            (second = first.2.runTokens limits ts ∧ (∀ t, first.2.Holds t → 0 ≤ t.line) ∧
              ∀ t ∈ ts, 0 < t.line) ∧
            ∃ told, marked.2.reports.toList = first.2.reports.toList ++ told ∧
              (∀ r ∈ told, r.Met first.2 ts) ∧
              second.2.reports.toList =
                first.2.reports.toList ++ told.map (Report.settled 0) ∧
              script.2.reports.toList =
                first.2.reports.toList ++ told.map (Report.settled (linesAbove above))) ∧
        ∀ stop, w.stop? limits above = some stop →
          script.1 = first.1 ∧ script.2.printed = first.2.printed ∧
            script.2.heap = first.2.heap ∧ script.2.globals = first.2.globals ∧
            script.2.reports = first.2.reports ∧
            ∀ later, script.2.responses later = first.2.responses later := by
  intro w h h' first second script ts lowered marked
  have hself : Like Eq w.reports.toList w.reports.toList w w :=
    like_reached lookalike_eq (fun _ _ _ => rfl) natives time requests
  refine ⟨h.joined h' hself.fresh, h.stop?_of_quiet hself,
    fun e hstop => h.reported_of_failed hstop, fun hstop => ?_, fun stop hstop => ?_⟩
  · obtain ⟨hending, hscript⟩ := run_completed h h' hself hstop
    have hfirst : Like Eq _ _ first.2 first.2 :=
      (hself.run lookalike_eq (fun _ _ _ => rfl) limits above).2
    have hcounted : Like Counted _ _ first.2 first.2 :=
      ((like_reached lookalike_counted (fun _ => counted_of_lex) natives time requests).run
        lookalike_counted (fun _ => counted_of_lex) limits above).2
    have hold : ∀ t, first.2.Holds t → 0 ≤ t.line := fun t ht => (hcounted.holds ht).2
    have hsecond : second = first.2.runTokens limits ts :=
      (h'.elsewhere first.2).runTokens
    obtain ⟨told, htold, hmet, hrun⟩ :=
      marked_run hfirst hold lex_line_pos (read_quiet_iff.1 h'.reading).2
    obtain ⟨hending₀, hprinted₀, hheap₀, hreports₀⟩ := hrun 0
    obtain ⟨hending₁, hprinted₁, hheap₁, hreports₁⟩ := hrun (linesAbove above)
    rw [Token.map_down_zero, ← hsecond] at hending₀ hprinted₀ hheap₀ hreports₀
    have hheap : script.2.heap = second.2.heap :=
      (hscript.heap.symm.trans hheap₁).trans hheap₀.symm
    have hreports : script.2.reports = lowered.2.reports := hscript.reports_eq.symm
    refine ⟨(hending.symm.trans hending₁).trans hending₀.symm,
      (hscript.printed.symm.trans hprinted₁).trans hprinted₀.symm, hheap,
      congrArg (·.chainHead globalChain) hheap,
      ⟨hending.symm, hreports, fun later => (hscript.responses later).symm⟩,
      ⟨hsecond, hold, lex_line_pos⟩, told, htold, hmet, hreports₀, ?_⟩
    rw [hreports]
    exact hreports₁
  · obtain ⟨hending, hlike⟩ := run_stopped h h' hself hstop
    exact ⟨hending.symm, hlike.printed.symm, hlike.heap.symm,
      congrArg (·.chainHead globalChain) hlike.heap.symm, hlike.reports_eq.symm,
      fun later => (hlike.responses later).symm⟩

/-- A source that comes to its end, and one that uses what it declares and then fails. -/
def declaring : String := "var a = \"x\"; function f() \x7b return a - a; \x7d\nprint a;"

def failing : String := "print a + a;\nprint a - a;"

/-- A source that fails in the function from before, where it has the same token itself. -/
def borrowing : String := "function g() \x7b return a - a; \x7d\nf();"

theorem declaring_then_failing :
    let w := ((World.create Native.standard 0).serve closureRequests).2
    let first := w.run ⟨60, 5⟩ declaring
    let second := first.2.run ⟨60, 5⟩ failing
    let script := w.run ⟨60, 5⟩ (joined declaring failing)
    let marked := first.2.runTokens ⟨60, 5⟩ ((lex failing).tokens.map Token.marked)
    let borrowed := first.2.runTokens ⟨60, 5⟩ ((lex borrowing).tokens.map Token.marked)
    let swapped := w.run ⟨60, 5⟩ (joined failing declaring)
    (script.1 = second.1 ∧ script.2.printed = second.2.printed ∧
      script.2.globals = second.2.globals) ∧
      (script.2.printed, script.2.runtimeErrors.map (·.token.line)) = (#["x", "xx"], [4]) ∧
      second.2.runtimeErrors.map (·.token.line) = [2] ∧
      marked.2.runtimeErrors.map (·.token.line) = [-2] ∧
      borrowed.2.runtimeErrors.map (·.token.line) = [1] ∧
      swapped.2.reports = (w.run ⟨60, 5⟩ failing).2.reports := by
  have hdeclaring : ((World.create Native.standard 0).serve closureRequests).2.Accepts ⟨60, 5⟩
      declaring := ⟨by decide, by decide +kernel, by decide +kernel⟩
  have hfailing : ((World.create Native.standard 0).serve closureRequests).2.Accepts ⟨60, 5⟩
      failing := ⟨by decide, by decide +kernel, by decide +kernel⟩
  obtain ⟨-, hquiet, -, hcompleted, -⟩ := script_agrees_with_shell Native.standard 0 closureRequests
    ⟨60, 5⟩ declaring failing hdeclaring hfailing
  obtain ⟨-, -, -, -, hstopped⟩ := script_agrees_with_shell Native.standard 0 closureRequests
    ⟨60, 5⟩ failing declaring hfailing hdeclaring
  have hfirst : let w := ((World.create Native.standard 0).serve closureRequests).2
      let first := w.run ⟨60, 5⟩ declaring
      first.1 = .finished ∧ first.2.runtimeErrors = w.runtimeErrors := by decide +kernel
  obtain ⟨hending, hprinted, -, hglobals, -⟩ := hcompleted (hquiet hfirst.1 hfirst.2)
  have hsome : (((World.create Native.standard 0).serve closureRequests).2.stop? ⟨60, 5⟩
      failing).isSome := by decide +kernel
  obtain ⟨stop, hstop⟩ := Option.isSome_iff_exists.1 hsome
  obtain ⟨-, -, -, -, hreports, -⟩ := hstopped stop hstop
  exact ⟨⟨hending, hprinted, hglobals⟩, by decide +kernel, by decide +kernel, by decide +kernel,
    by decide +kernel, hreports⟩

end Scriptling
