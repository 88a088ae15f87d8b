-- Which globals there are. Outside all blocks and functions each declaration that completes binds
-- its name, at the end if the name is new. Nothing else that an accepted source does gives the
-- globals another name, takes one away or moves one, whether it completes or fails.
import Scriptling.Proofs.Run.Inside
import Scriptling.Proofs.Run.Safety

namespace Scriptling

/-! ## Statements that complete -/

/-- The name that a declaration binds. -/
def Stmt.declaredName? {ι : Type} : Stmt ι → Option String
  | .var name _ | .function name _ _ => some name.lexeme
  | _ => none

/-- The statements of a program that complete, in the order of their execution. The first that does
not is the last that is executed. -/
def Eval.completed (execute : Stmt UseId → Eval (Option Value)) :
    List (Stmt UseId) → World → List (Stmt UseId)
  | [], _ => []
  | s :: ss, w =>
    match execute s w with
    | .ok _ v => s :: completed execute ss v
    | .error _ _ => []

/-- The names that are not known yet, each once and in order. -/
def unseen (known : List String) : List String → List String
  | [] => []
  | name :: rest =>
    if name ∈ known then unseen known rest else name :: unseen (known ++ [name]) rest

theorem append_unseen_nil (known : List String) : known ++ unseen known [] = known :=
  List.append_nil known

theorem append_unseen_cons (known : List String) (name : String) (rest : List String) :
    known ++ unseen known (name :: rest) =
      withName known name ++ unseen (withName known name) rest := by
  rw [unseen, withName]
  split
  · rfl
  · rw [List.append_assoc, List.singleton_append]

/-! ## Statements outside all blocks -/

section TopLevel

variable {w : World} {P : Accepted} {path : Trail}

/-- A value is computed and bound to a global. The name is there if the value is. -/
theorem declaring_ends (hw : w.Orderly) {x : Eval Value} (hx : Keeps (Confined w) x)
    (name : String) :
    let declaring : Eval (Option Value) := do
      Eval.define globalChain name (← x)
      return none
    (∀ r v, declaring w = .ok r v → Reached w (withName w.globalNames name) v) ∧
      ∀ stop v, declaring w = .error stop v → Confined w v := by
  have hbehind := hx w hw.confined
  unfold Eval.behind at hbehind
  dsimp only
  rw [bind_eq]
  cases hvalue : x w with
  | ok a v₁ =>
    rw [hvalue] at hbehind
    refine ⟨fun r v hok => ?_, fun stop v herror => (nomatch herror)⟩
    cases hok
    exact hbehind.writeGlobal name a
  | error stop₁ v₁ =>
    rw [hvalue] at hbehind
    refine ⟨fun r v hok => (nomatch hok), fun stop v herror => ?_⟩
    cases herror
    exact hbehind

/-- A statement outside all scopes. -/
theorem statement_reaches (patience depth : Nat) (hw : w.Orderly) (hP : P.RecordedIn w)
    {s : Stmt UseId} (hs : ScopedStmt P false [] path s) :
    (∀ r v, Eval.statement patience depth globalChain s w = .ok r v →
      Reached w (s.declaredName?.elim w.globalNames (withName w.globalNames)) v) ∧
    ∀ stop v, Eval.statement patience depth globalChain s w = .error stop v → Confined w v := by
  cases depth with
  | zero =>
    refine ⟨fun r v hok => (nomatch hok), fun stop v herror => ?_⟩
    cases herror
    exact hw.confined
  | succ depth =>
    have hinside := keepsInside w patience depth
    have hplain : s.declares = false → Confined w
        (Eval.behind (Eval.statement patience (depth + 1) globalChain s) w) := fun hdeclares =>
      (keepsInside w patience (depth + 1)).statement (S := []) hP .global hs (fun _ => hdeclares) w
        hw.confined
    -- the two declarations bind a global behind what they compute, all else keeps inside
    cases hs with
    | @var _ _ _ name e _ _ value =>
      cases e with
      | none => exact declaring_ends hw (keeps_pure Value.nil) name.lexeme
      | some e =>
        have hvalue := hinside.expression (S := []) hP .global (value e rfl)
        exact declaring_ends hw hvalue name.lexeme
    | @function _ _ _ name ps ss _ _ _ body =>
      have hcode : Enclosed w (.closure ps ss globalChain) :=
        .closure (S := []) hP .global body
      exact declaring_ends hw (keeps_addFunction hcode name.lexeme) name.lexeme
    | expression | print | block | branch | loop =>
      have hconfined := hplain rfl
      refine ⟨fun r v hok => ?_, fun stop v herror => ?_⟩
      · rwa [Eval.behind_of_ok hok] at hconfined
      · rwa [Eval.behind_of_error herror] at hconfined

end TopLevel

/-! ## Programs -/

/-- A program was executed from `w` to `v`: the tables are as they were, at most one error was
reported, and now the globals have the given names. -/
structure Executed (w : World) (names : List String) (v : World) : Prop where
  orderly : v.Orderly
  later : Later w v
  reports : ∃ error? : Option RuntimeError,
    v.reports.toList = w.reports.toList ++ error?.toList.map Report.runtime
  quiet : w.hadError = false → v.hadError = false
  names : v.globalNames = names

section Programs

variable {w v u : World} {names names' : List String}

theorem Reached.executed (h : Reached w names v) : Executed w names v :=
  ⟨h.orderly, h.later, ⟨none, by simp [h.reports]⟩, h.quiet, h.names⟩

theorem Reached.thenExecuted (h : Reached w names v) (h' : Executed v names' u) :
    Executed w names' u := by
  obtain ⟨error?, hreports⟩ := h'.reports
  exact ⟨h'.orderly, h.later.trans h'.later, ⟨error?, by rw [hreports, h.reports]⟩,
    fun hw => h'.quiet (h.quiet hw), h'.names⟩

/-- The error that ends a program is reported. -/
theorem Reached.reporting (h : Reached w names v) (e : RuntimeError) :
    Executed w names (v.reporting e) := by
  have hlater : Later v (v.reporting e) := ⟨Nat.le_refl _, fun _ _ => rfl⟩
  refine ⟨⟨h.orderly.next, fun c hc => (h.orderly.code c hc).later hlater, h.orderly.fresh⟩,
    h.later.trans hlater, ⟨some e, ?_⟩, h.quiet, h.names⟩
  show (v.reports.push (.runtime e)).toList = _
  rw [Array.toList_push, h.reports]
  rfl

theorem executed_program {P : Accepted} {path : Trail} {i : Nat} {ss : List (Stmt UseId)}
    (patience depth : Nat) (hw : w.Orderly) (hP : P.RecordedIn w)
    (hss : ScopedBody P false [] path i ss) :
    let execute := Eval.statement patience depth globalChain
    Executed w (w.globalNames ++ unseen w.globalNames
        ((Eval.completed execute ss w).filterMap Stmt.declaredName?))
      (Eval.behind (Eval.program execute ss) w) := by
  dsimp only
  induction ss generalizing w i with
  | nil =>
    rw [Eval.completed, List.filterMap_nil, append_unseen_nil]
    exact hw.confined.executed
  | cons s ss ih =>
    cases hss with
    | cons first rest =>
      have hafter : Scopes.after [] s = [] := by cases s <;> rfl
      rw [hafter] at rest
      obtain ⟨hcompletes, hstops⟩ := statement_reaches patience depth hw hP first
      rw [Eval.behind, Eval.program_cons, Eval.completed]
      cases hr : Eval.statement patience depth globalChain s w with
      | ok r v =>
        have hreached := hcompletes r v hr
        have hrest := hreached.thenExecuted (ih hreached.orderly (hP.later hreached.later) rest)
        rw [hreached.names] at hrest
        dsimp only
        cases hname : s.declaredName? with
        | none =>
          rw [hname] at hrest
          rw [List.filterMap_cons_none hname]
          exact hrest
        | some name =>
          rw [hname] at hrest
          rw [List.filterMap_cons_some hname, append_unseen_cons]
          exact hrest
      | error stop v =>
        have hconfined := hstops stop v hr
        dsimp only
        rw [List.filterMap_nil, append_unseen_nil]
        cases stop with
        | failed e => exact hconfined.reporting e
        | overflow => exact hconfined.reporting _
        | fault | outOfPatience => exact hconfined.executed

end Programs

/-! ## Sessions -/

section Sessions

variable {w : World} {limits : Limits} {source : String}

/-- A change of the tables, of what was reported and of the globals leaves the code alone. -/
theorem World.Orderly.retable {v : World} (h : w.Orderly) (hnext : v.heap.next = w.heap.next)
    (hcode : v.code = w.code) (hlater : Later w v) (hfresh : v.Fresh) : v.Orderly where
  next := hnext ▸ h.next
  code c hc := (h.code c (hcode ▸ hc)).later hlater
  fresh := hfresh

theorem World.Orderly.load (h : w.Orderly) (limits : Limits) (source : String) :
    (w.load limits source).2.Orderly :=
  h.retable rfl rfl (w.prepare_later _ _) (h.fresh.prepare _ _)

/-- The statements of an accepted source are in order, with their distances in the tables. -/
theorem World.Accepts.scopedBody (h : w.Accepts limits source) (hw : w.Orderly) :
    ∃ P : Accepted, P.RecordedIn (w.load limits source).2 ∧
      ScopedBody P false [] [] 0 (w.load limits source).1 := by
  obtain ⟨ss, next, hlabel, -, hnumbers⟩ :=
    Stmt.labelAll_labels (read (limits.depth - 5) source).statements w.nextUse
  have hregular := h.regular
  have hclean := h.scopes
  rw [World.load, World.prepare_of_label hlabel] at hregular hclean ⊢
  obtain ⟨f, hends⟩ := Resolve.program_ends limits.depth hregular ⟨w.distances, #[]⟩
  refine ⟨⟨limits.depth, w.distances, ss, next⟩, ⟨Nat.le_refl _, fun _ _ => rfl⟩, ?_⟩
  exact Accepted.scopedBody (P := ⟨limits.depth, w.distances, ss, next⟩) hends hclean hregular
    hnumbers.nodup (fun l hl => (hnumbers.mem hl).2) fun l hl => hw.fresh l (hnumbers.mem hl).1

/-- An accepted source is executed behind its loading. -/
theorem World.Accepts.executed_load (h : w.Accepts limits source) (hw : w.Orderly) :
    let execute := Eval.statement limits.patience limits.depth globalChain
    let program := w.load limits source
    Executed program.2 (w.globalNames ++ unseen w.globalNames
        ((Eval.completed execute program.1 program.2).filterMap Stmt.declaredName?))
      (w.run limits source).2 := by
  obtain ⟨P, hP, hbody⟩ := h.scopedBody hw
  have hexecuted := executed_program limits.patience limits.depth (hw.load limits source) hP hbody
  have hrun : (w.run limits source).2 = Eval.behind (Eval.program
      (Eval.statement limits.patience limits.depth globalChain) (w.load limits source).1)
      (w.load limits source).2 := by
    rw [World.run_eq, Eval.behind, Runs.request, Eval.answer, h.run]
    cases Eval.program _ _ _ <;> rfl
  dsimp only
  rw [hrun]
  exact hexecuted

theorem World.Accepts.executed (h : w.Accepts limits source) (hw : w.Orderly) :
    let execute := Eval.statement limits.patience limits.depth globalChain
    let program := w.load limits source
    Executed w (w.globalNames ++ unseen w.globalNames
        ((Eval.completed execute program.1 program.2).filterMap Stmt.declaredName?))
      (w.run limits source).2 := by
  have hexecuted := h.executed_load hw
  exact ⟨hexecuted.orderly, (w.prepare_later _ _).trans hexecuted.later, hexecuted.reports,
    fun _ => hexecuted.quiet rfl, hexecuted.names⟩

theorem World.Orderly.request (h : w.Orderly) (r : Request) :
    (Runs.request (Eval.answer r) w).2.Orderly := by
  cases r with
  | define name v => exact h.retable (Heap.next_put ..) rfl ⟨Nat.le_refl _, fun _ _ => rfl⟩ h.fresh
  | run limits source =>
    obtain hlt | hroom := Nat.lt_or_ge limits.depth 5
    · rw [Runs.request, Eval.answer, Eval.run_of_lt hlt]
      exact h.retable rfl rfl ⟨Nat.le_refl _, fun _ _ => rfl⟩ h.fresh
    obtain haccepts | hrejects := w.accepts_or_rejects hroom source
    · rw [← World.run_eq]
      exact (haccepts.executed h).orderly
    · rw [Runs.request, Eval.answer, hrejects.run]
      exact h.retable rfl rfl (w.reject_later limits source) (h.fresh.reject limits source)

theorem World.Orderly.serve (h : w.Orderly) (requests : List Request) :
    (w.serve requests).2.Orderly := by
  induction requests generalizing w with
  | nil => exact h
  | cons r rest ih => exact ih (h.request r)

/-- No native of the host runs a source. -/
def RunsNoSource (natives : List Native) : Prop :=
  ∀ n ∈ natives, ∀ arguments text, ¬ (n.act arguments).MayRun text

theorem orderly_create {natives : List Native} (hnatives : RunsNoSource natives) (time : Float) :
    (World.create natives time).Orderly := by
  have h := installed_create natives time
  refine ⟨?_, fun c hc => ?_, fun l _ => ?_⟩
  · rw [h.next]
    exact Nat.one_pos
  · rw [h.code, List.mem_toArray] at hc
    obtain ⟨n, hn, rfl⟩ := List.mem_map.1 hc
    exact .host (hnatives n hn)
  · rw [h.distances]
    rfl

end Sessions

/-- Whatever a session did before, if no native runs a source itself: behind an accepted source the
globals have the names that they had, and then the new names among those that its completed
declarations outside all blocks and functions bind, in the order of execution. -/
theorem globalNames_of_accepted_run {natives : List Native} (hnatives : RunsNoSource natives)
    (time : Float) (requests : List Request) (limits : Limits) (source : String) :
    let w := ((World.create natives time).serve requests).2
    w.Accepts limits source →
      let execute := Eval.statement limits.patience limits.depth globalChain
      let program := w.load limits source
      (w.run limits source).2.globalNames = w.globalNames ++ unseen w.globalNames
        ((Eval.completed execute program.1 program.2).filterMap Stmt.declaredName?) := by
  intro w haccepts
  have horderly : w.Orderly := (orderly_create hnatives time).serve requests
  exact (haccepts.executed horderly).names

theorem runsNoSource_standard : RunsNoSource Native.standard := by
  intro n hn arguments text hrun
  rw [List.mem_singleton.1 hn] at hrun
  cases hrun with
  | afterClock later => cases later

/-- Declarations inside and outside, assignments from all places, and an assignment that fails. -/
def busySource : String :=
  "var a; \x7b var b = a; a = b; \x7d function g() \x7b n = a; var c; \x7d " ++
  "var n = g(); lost = a; var z;"

theorem globalNames_of_busySource :
    let w := ((World.create Native.standard 0).serve closureRequests).2
    let v := (w.run ⟨60, 5⟩ busySource).2
    w.Accepts ⟨60, 5⟩ busySource ∧ w.globalNames = ["clock", "n", "make"] ∧
      v.globalNames = ["clock", "n", "make"] ++ ["a", "g"] ∧
      v.runtimeErrors.map (·.failure) = [.undefinedVariable "lost"] := by
  have haccepts : ((World.create Native.standard 0).serve closureRequests).2.Accepts ⟨60, 5⟩
      busySource := ⟨by decide, by decide +kernel, by decide +kernel⟩
  have hnames := globalNames_of_accepted_run runsNoSource_standard 0 closureRequests ⟨60, 5⟩
    busySource haccepts
  refine ⟨haccepts, by decide +kernel, hnames.trans ?_, by decide +kernel⟩
  decide +kernel

end Scriptling
