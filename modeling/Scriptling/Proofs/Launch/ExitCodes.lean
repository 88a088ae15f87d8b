-- What an exit code tells. The prelude and the script are run in one session. Each run forgets the
-- static errors of the runs before it, and no run forgets a runtime error; so the code tells of
-- static errors in the script alone, and of runtime errors in any of the sources.
import Scriptling.Launch
import Scriptling.Proofs.Editor.StaticErrors
import Scriptling.Proofs.Run.Joined

namespace Scriptling

variable {w : World} {limits : Limits} {source : String} {texts : List String}

/-! ## Sources run in turn -/

/-- A source has an error of characters, of syntax or of scope. -/
def Faulty (limits : Limits) (source : String) : Prop :=
  (lex source).errors ≠ [] ∨
    (parse (limits.depth - 5) (lex source).tokens).complaints ≠ [] ∨
    Lexical.scopeErrors limits.depth (read (limits.depth - 5) source).statements ≠ []

namespace World

/-- The world after sources were run in turn, whatever came of each. -/
def runAll (w : World) (limits : Limits) (sources : List String) : World :=
  sources.foldl (fun w source => (w.run limits source).2) w

/-- Of sources run in turn, one has a runtime error reported when it is run. -/
def SomeFails (w : World) (limits : Limits) (sources : List String) : Prop :=
  ∃ before source after, sources = before ++ source :: after ∧
    ((w.runAll limits before).run limits source).2.runtimeErrors ≠
      (w.runAll limits before).runtimeErrors

end World

theorem faulty_iff : Faulty limits source ↔ w.objections limits source ≠ [] := by
  have hscopes : Lexical.scopeErrors limits.depth (read (limits.depth - 5) source).statements =
      (resolve limits.depth w.distances (w.load limits source).1).1.errors.toList :=
    congrArg Array.toList (resolve_alike limits.depth ∅ w.distances _ 0 w.nextUse)
  unfold Faulty World.objections
  rw [hscopes, ← or_assoc, ← not_and_or, ← read_quiet_iff]
  split
  next hquiet => exact or_iff_right (not_not_intro hquiet)
  next hloud => exact iff_of_true (Or.inl hloud) hloud

theorem World.someFails_cons {text : String} : w.SomeFails limits (text :: texts) ↔
    (w.run limits text).2.runtimeErrors ≠ w.runtimeErrors ∨
      (w.run limits text).2.SomeFails limits texts := by
  constructor
  · rintro ⟨before, source, after, hsplit, hfails⟩
    cases before with
    | nil =>
      cases hsplit
      exact Or.inl hfails
    | cons first before =>
      cases hsplit
      exact Or.inr ⟨before, source, after, rfl, hfails⟩
  · rintro (hfails | ⟨before, source, after, rfl, hfails⟩)
    · exact ⟨[], text, texts, rfl, hfails⟩
    · exact ⟨text :: before, source, after, rfl, hfails⟩

/-! ## What one run adds -/

/-- A program stops early only where the host fails or a loop goes on for too long: anything else
that stops a statement is reported. -/
theorem Eval.program_error {execute : Stmt UseId → Eval (Option Value)} {ss : List (Stmt UseId)}
    {stop : Stop} {v : World} (h : Eval.program execute ss w = .error stop v) :
    (∃ f, stop = .fault f) ∨ stop = .outOfPatience := by
  induction ss generalizing w with
  | nil => cases h
  | cons s ss ih =>
    rw [Eval.program_cons] at h
    generalize execute s w = r at h
    cases r with
    | ok _ w₁ => exact ih h
    | error stop' w₁ =>
      cases stop' with
      | failed | overflow => cases h
      | fault f =>
        cases h
        exact Or.inl ⟨f, rfl⟩
      | outOfPatience =>
        cases h
        exact Or.inr rfl

/-- Static errors do not show among the runtime ones. -/
theorem World.runtimeErrors_of_reports {v : World} {errors : List StaticError}
    {failures : List RuntimeError}
    (h : v.reports.toList = w.reports.toList ++ errors.map Report.static ++
      failures.map Report.runtime) : v.runtimeErrors = w.runtimeErrors ++ failures := by
  have hstatic : (errors.map Report.static).filterMap Report.runtime? = [] := by
    rw [List.filterMap_map]
    exact List.filterMap_eq_nil_iff.2 fun _ _ => rfl
  have hruntime : (failures.map Report.runtime).filterMap Report.runtime? = failures := by
    rw [List.filterMap_map]
    exact List.filterMap_some
  rw [World.runtimeErrors, h, List.filterMap_append, List.filterMap_append, hstatic, hruntime,
    List.append_nil, World.runtimeErrors]

/-- A world that a session with the standard natives can be in. -/
structure Ready (w : World) : Prop where
  orderly : w.Orderly
  agrees : ∃ q : Pair, Agree Native.standard none q ∧ q.watched.world = w

theorem ready_create (time : Float) : Ready (World.create Native.standard time) where
  orderly := orderly_create runsNoSource_standard time
  agrees := ⟨Pair.start Native.standard time, agree_start Native.standard time, rfl⟩

namespace Ready

theorem run (h : Ready w) (limits : Limits) (source : String) :
    Ready (w.run limits source).2 := by
  obtain ⟨q, hq, rfl⟩ := h.agrees
  obtain ⟨ending, q', hq', hrun, -⟩ :=
    (meets_answer (r := .run limits source) (fairHost_standard False) hq trivial).request
  obtain ⟨-, hworld⟩ := (Watch.erases_answer (.run limits source)).request q.watched
  rw [hrun] at hworld
  rw [World.run_eq]
  exact ⟨h.orderly.request _, q', hq', hworld⟩

/-- A run does not break down. -/
theorem ending (h : Ready w) (hroom : 5 ≤ limits.depth) (source : String) :
    (w.run limits source).1 = .finished ∨ (w.run limits source).1 = .outOfPatience := by
  obtain haccepts | hrejects := w.accepts_or_rejects hroom source
  · obtain ⟨q, hq, rfl⟩ := h.agrees
    have hmeets := meets_answer (r := .run limits source) (fairHost_standard False) hq trivial
    have herases := Watch.erases_answer (.run limits source) q.watched
    have hprogram : Eval.answer (.run limits source) q.watched.world = Eval.program _ _ _ :=
      haccepts.run _
    rw [World.run_eq]
    unfold Meets at hmeets
    unfold Runs.request
    rw [← herases] at hprogram ⊢
    generalize Watch.answer (.run limits source) q.watched = r at hmeets hprogram ⊢
    generalize Lexical.answer .plain (.run limits source) q.lexical = r' at hmeets
    cases hmeets with
    | ok => exact Or.inl rfl
    | @error q' stop agree grows allowed =>
      obtain ⟨f, rfl⟩ | rfl := Eval.program_error hprogram.symm
      · exact allowed.elim
      · exact Or.inr rfl
  · rw [hrejects.request]
    exact Or.inl rfl

/-- A run shows a static error exactly if its own source has one. -/
theorem hadError_iff (h : Ready w) (hroom : 5 ≤ limits.depth) :
    (w.run limits source).2.hadError = true ↔ w.objections limits source ≠ [] := by
  obtain haccepts | hrejects := w.accepts_or_rejects hroom source
  · have hquiet := (haccepts.executed_load h.orderly).quiet rfl
    have hnone := (World.accepts_iff.1 haccepts).2
    simp [hquiet, hnone]
  · rw [hrejects.request]
    exact iff_of_true rfl hrejects.objections

/-- A run keeps the runtime errors reported before it, and adds one at most. -/
theorem runtimeErrors (h : Ready w) (hroom : 5 ≤ limits.depth) (source : String) :
    ∃ error? : Option RuntimeError,
      (w.run limits source).2.runtimeErrors = w.runtimeErrors ++ error?.toList := by
  obtain ⟨error?, hreports, -⟩ := h.orderly.run_reports hroom source
  exact ⟨error?, World.runtimeErrors_of_reports hreports⟩

/-- A run without static errors, behind which no runtime error stands, has reported nothing. -/
theorem reports_of_quiet (h : Ready w) (hroom : 5 ≤ limits.depth)
    (hnone : w.objections limits source = [])
    (hquiet : (w.run limits source).2.runtimeErrors = []) :
    (w.run limits source).2.reports = w.reports := by
  obtain ⟨error?, hreports, -⟩ := h.orderly.run_reports hroom source
  rw [World.runtimeErrors_of_reports hreports, List.append_eq_nil_iff] at hquiet
  rw [hnone, hquiet.2] at hreports
  simpa using hreports

/-! ## What all runs come to -/

theorem runAll (h : Ready w) (limits : Limits) (texts : List String) :
    Ready (w.runAll limits texts) := by
  induction texts generalizing w with
  | nil => exact h
  | cons text texts ih => exact ih (h.run limits text)

/-- No runtime error of a run is forgotten by the runs after it. -/
theorem runtimeErrors_runAll (h : Ready w) (hroom : 5 ≤ limits.depth) (texts : List String) :
    (w.runAll limits texts).runtimeErrors ≠ [] ↔
      w.runtimeErrors ≠ [] ∨ w.SomeFails limits texts := by
  induction texts generalizing w with
  | nil =>
    refine (or_iff_left ?_).symm
    rintro ⟨before, source, after, hsplit, -⟩
    simp at hsplit
  | cons text texts ih =>
    obtain ⟨error?, herrors⟩ := h.runtimeErrors hroom text
    rw [World.someFails_cons, ← or_assoc]
    refine (ih (h.run limits text)).trans (or_congr_left ?_)
    simp only [herrors, ne_eq, List.append_eq_nil_iff, not_and_or, List.append_right_eq_self]

/-- A prelude that can be read is run from end to end, unless it goes on for too long. -/
theorem loadAll (h : Ready w) (hroom : 5 ≤ limits.depth) (texts : List String) :
    Scriptling.loadAll limits w (texts.map .ok) = (w.runAll limits texts, none) ∨
      (Scriptling.loadAll limits w (texts.map .ok)).2 = some .outOfPatience := by
  induction texts generalizing w with
  | nil => exact Or.inl rfl
  | cons text texts ih =>
    have hnext := ih (h.run limits text)
    have hending := h.ending hroom text
    rw [List.map_cons, Scriptling.loadAll]
    generalize hrun : w.run limits text = result at hnext hending
    obtain ⟨ending, v⟩ := result
    have hall : w.runAll limits (text :: texts) = v.runAll limits texts :=
      congrArg (fun r => World.runAll r.2 limits texts) hrun
    obtain rfl | rfl := hending
    · rw [hall]
      exact hnext
    · exact Or.inr rfl

end Ready

/-! ## Exit codes -/

namespace World

theorem hadRuntimeError_iff : w.hadRuntimeError = true ↔ w.runtimeErrors ≠ [] := by
  unfold hadRuntimeError runtimeErrors
  rw [Ne, List.filterMap_eq_nil_iff, ← Array.any_toList, List.any_eq_true]
  simp [Option.isSome_iff_ne_none]

theorem exit_eq_dataError_iff : w.exit = .dataError ↔ w.hadError = true := by
  unfold exit
  split
  next herror => exact iff_of_true rfl herror
  next hquiet =>
    refine iff_of_false ?_ hquiet
    split <;> simp [Exit.dataError, Exit.software]

theorem exit_eq_software_iff (h : w.hadError = false) :
    w.exit = .software ↔ w.runtimeErrors ≠ [] := by
  rw [← hadRuntimeError_iff]
  unfold exit
  simp [h, Exit.software]

theorem exit_of_quiet (h : w.hadError = false) (hnone : w.runtimeErrors = []) :
    w.exit = .code 0 := by
  unfold exit
  have hquiet : ¬ w.hadRuntimeError = true := fun herror => hadRuntimeError_iff.1 herror hnone
  rw [h, if_neg Bool.false_ne_true, if_neg hquiet]

end World

section Launch

variable {s : Setting} {script : String}

/-- A script that can be read is run behind its prelude, and the world behind it tells the rest. -/
theorem Setting.start_eq (hsession : s.session = (w, none))
    (hsource : s.files.readText (.ofText script) = .ok source) :
    let v := (w.run s.limits source).2
    s.start (some script) = ⟨(w.run s.limits source).1.exit?.getD v.exit, v.printedSince 0,
      v.reportedSince s.console 0⟩ := by
  have hscript : runScript s.limits s.files w (.ofText script) =
      ((w.run s.limits source).2,
        (w.run s.limits source).1.exit?.getD (w.run s.limits source).2.exit) := by
    unfold runScript
    rw [hsource]
  unfold start
  rw [hsession]
  dsimp only
  rw [hscript]

/-- A launch that ends has run its prelude and its script from end to end. -/
theorem Setting.launch_of_ends (hdemand : CommandLine.read s.arguments = .run [script])
    (hprelude : Prelude.sources s.files (Prelude.root s.vars s.files) = texts.map .ok)
    (hsource : s.files.readText (.ofText script) = .ok source) (hroom : 5 ≤ s.limits.depth)
    (hends : s.launch.exit ≠ .outOfPatience) :
    let w := (World.create Native.standard s.time).runAll s.limits texts
    let v := (w.run s.limits source).2
    s.launch = ⟨v.exit, v.printedSince 0, v.reportedSince s.console 0⟩ := by
  have hready := (ready_create s.time).runAll s.limits texts
  have hlaunch : s.launch = s.start (some script) := by
    unfold launch
    rw [hdemand]
  have hsession : s.session =
      loadAll s.limits (World.create Native.standard s.time) (texts.map .ok) := by
    unfold session
    rw [hprelude]
  rw [hlaunch] at hends ⊢
  obtain hloaded | hloaded := (ready_create s.time).loadAll hroom texts
  · have hstart := Setting.start_eq (hsession.trans hloaded) hsource
    dsimp only at hstart ⊢
    rw [hstart] at hends ⊢
    obtain hfinished | hlate := hready.ending hroom source
    · rw [hfinished]
      rfl
    · rw [hlate] at hends
      exact absurd rfl hends
  · rw [← hsession] at hloaded
    refine absurd ?_ hends
    unfold start
    generalize s.session = result at hloaded
    obtain ⟨w, exit?⟩ := result
    cases hloaded
    rfl

/-- What the exit code of a script tells, for any prelude and if the run ends. The code is 65
exactly if the script has a static error; then the script has printed nothing and has done nothing
else. Otherwise it is 70 exactly if a runtime error was reported when a source of the prelude or the
script was run. Otherwise it is 0, and the script has no part in what was reported. -/
theorem exit_code_of_script (hdemand : CommandLine.read s.arguments = .run [script])
    (hprelude : Prelude.sources s.files (Prelude.root s.vars s.files) = texts.map .ok)
    (hsource : s.files.readText (.ofText script) = .ok source) (hroom : 5 ≤ s.limits.depth)
    (hends : s.launch.exit ≠ .outOfPatience) :
    let start := World.create Native.standard s.time
    let w := start.runAll s.limits texts
    let v := (w.run s.limits source).2
    let console := s.console
    (s.launch.stdout = v.printedSince 0 ∧ s.launch.stderr = v.reportedSince console 0) ∧
      (s.launch.exit = .code 65 ↔ Faulty s.limits source) ∧
      (Faulty s.limits source → Untouched w v ∧ s.launch.stdout = w.printedSince 0) ∧
      (¬ Faulty s.limits source →
        (s.launch.exit = .code 70 ↔ start.SomeFails s.limits (texts ++ [source])) ∧
        (¬ start.SomeFails s.limits (texts ++ [source]) →
          s.launch.exit = .code 0 ∧ s.launch.stderr = w.reportedSince console 0)) := by
  intro start w v console
  have hready : Ready w := (ready_create s.time).runAll s.limits texts
  have hlaunch : s.launch = ⟨v.exit, v.printedSince 0, v.reportedSince console 0⟩ :=
    Setting.launch_of_ends hdemand hprelude hsource hroom hends
  have hfaulty : Faulty s.limits source ↔ w.objections s.limits source ≠ [] := faulty_iff
  have hflag : v.hadError = true ↔ Faulty s.limits source :=
    (hready.hadError_iff hroom).trans hfaulty.symm
  -- the script is one more source behind the prelude
  have hlast : start.runAll s.limits (texts ++ [source]) = v := List.foldl_append
  have hfails : start.SomeFails s.limits (texts ++ [source]) ↔ v.runtimeErrors ≠ [] := by
    rw [← hlast, (ready_create s.time).runtimeErrors_runAll hroom]
    exact (or_iff_right (not_not_intro rfl)).symm
  rw [hlaunch, hfails]
  refine ⟨⟨rfl, rfl⟩, World.exit_eq_dataError_iff.trans hflag, fun herror => ?_, fun hnone => ?_⟩
  · obtain ⟨_, -, hrejected⟩ := hready.orderly.run_reports hroom source
    have huntouched : Untouched w v := (hrejected (hfaulty.1 herror)).2.2
    refine ⟨huntouched, ?_⟩
    show v.printedSince 0 = w.printedSince 0
    unfold World.printedSince
    rw [huntouched.printed]
  · have hquiet : v.hadError = false := Bool.eq_false_iff.2 fun herror => hnone (hflag.1 herror)
    refine ⟨World.exit_eq_software_iff hquiet, fun hclean => ?_⟩
    have hnil : v.runtimeErrors = [] := not_not.1 hclean
    refine ⟨World.exit_of_quiet hquiet hnil, ?_⟩
    have hreports : v.reports = w.reports :=
      hready.reports_of_quiet hroom (not_not.1 (hfaulty.not.1 hnone)) hnil
    show v.reportedSince console 0 = w.reportedSince console 0
    unfold World.reportedSince
    rw [hreports]

end Launch

/-- A launch with a prelude of two sources. The first has a static error, the second fails; the
script is in order. -/
def troubled : Setting where
  limits := ⟨60, 5⟩
  arguments := ["main.itl"]
  vars := [("ITL_PRELUDE_PATH", "/lib")]
  files := (((Files.start []).add ["lib", "a.itl"] (.file "print nil; return;".toUTF8)).add
    ["lib", "b.itl"] (.file "print true; print -nil;".toUTF8)).add
    ["main.itl"] (.file "print false;".toUTF8)
  input := ""
  time := 0

theorem troubled_prelude :
    Prelude.sources troubled.files (Prelude.root troubled.vars troubled.files) =
      ["print nil; return;", "print true; print -nil;"].map .ok := by
  have hroot : Prelude.root troubled.vars troubled.files = .directory ⟨.root, ["lib"]⟩ := by
    decide +kernel
  have hfound : (troubled.files.filesIn ⟨.root, ["lib"]⟩).filter (·.endsWith ".itl") =
      ["a.itl", "b.itl"] := by decide +kernel
  have hsorted : ["a.itl", "b.itl"].mergeSort (fun a b => decide (a ≤ b)) = ["a.itl", "b.itl"] :=
    List.mergeSort_of_pairwise (by decide +kernel)
  rw [hroot, Prelude.sources, Prelude.filesUnder, hfound, hsorted]
  decide +kernel

theorem troubled_exit_code :
    ¬ Faulty ⟨60, 5⟩ "print false;" ∧
      (World.create Native.standard 0).SomeFails ⟨60, 5⟩
        ["print nil; return;", "print true; print -nil;", "print false;"] ∧
      troubled.launch.exit = .code 70 ∧ troubled.launch.stdout = "true\nfalse\n" := by
  have hdemand : CommandLine.read troubled.arguments = .run ["main.itl"] := by decide +kernel
  have hsource : troubled.files.readText (.ofText "main.itl") = .ok "print false;" := by
    decide +kernel
  have hends : troubled.launch.exit ≠ .outOfPatience := by
    show (troubled.start (some "main.itl")).exit ≠ .outOfPatience
    unfold Setting.start Setting.session
    rw [troubled_prelude]
    decide +kernel
  obtain ⟨⟨hstdout, -⟩, -, -, hcode⟩ :=
    exit_code_of_script hdemand troubled_prelude hsource (by decide) hends
  have hfine : ¬ Faulty ⟨60, 5⟩ "print false;" := by
    rintro (hlex | hparse | hscopes)
    · exact hlex (by decide +kernel)
    · exact hparse (by decide +kernel)
    · exact hscopes (by decide +kernel)
  have hfails : (World.create Native.standard 0).SomeFails ⟨60, 5⟩
      ["print nil; return;", "print true; print -nil;", "print false;"] :=
    ⟨["print nil; return;"], _, ["print false;"], rfl, by decide +kernel⟩
  refine ⟨hfine, hfails, (hcode hfine).1.2 hfails, ?_⟩
  rw [hstdout]
  decide +kernel

end Scriptling
