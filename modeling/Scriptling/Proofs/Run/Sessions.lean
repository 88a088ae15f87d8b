-- Sessions from their start. A host makes requests of a session, one after the other, and at each
-- moment between two requests the session agrees with one by names that got the same requests.
import Scriptling.Proofs.Run.Programs

namespace Scriptling

open Lexical (State)

/-! ## Requests -/

/-- What a host asks of a session. -/
inductive Request
  /-- Bind a global to a value. -/
  | define (name : String) (value : Value)
  /-- Run a source. -/
  | run (limits : Limits) (source : String)

/-- A global gets a plain value, or a native of the session. -/
def Request.Fair (natives : List Native) : Request → Prop
  | .define _ v => Knows natives [] v
  | .run .. => True

namespace Runs

variable {σ : Type}

/-- How a request ends, and the state behind it. -/
def request (r : Runs σ Unit) (s : σ) : Ending × σ :=
  match r s with
  | .ok _ s => (.finished, s)
  | .error stop s => (.ofStop stop, s)

/-- Serve requests in turn. -/
def serve (answer : Request → Runs σ Unit) : List Request → σ → List Ending × σ
  | [], s => ([], s)
  | r :: rest, s =>
    let (ending, s) := request (answer r) s
    let (endings, s) := serve answer rest s
    (ending :: endings, s)

end Runs

def Eval.answer : Request → Eval Unit
  | .define name v => Eval.define globalChain name v
  | .run limits source => Eval.run limits.depth
      (Eval.statement limits.patience limits.depth globalChain) (.text source)

def Watch.answer : Request → Watch Unit
  | .define name v => Watch.lift (Eval.define globalChain name v)
  | .run limits source => Watch.run limits.depth
      (fun n i s => Watch.statement limits.patience limits.depth ⟨n, [i]⟩ globalChain s)
      (.text source)

def Lexical.answer (rules : Lexical.Rules) : Request → Lexical.ByName Unit
  | .define name v => Lexical.defineGlobal name v
  | .run limits source => Lexical.run limits.depth
      (fun s => do let _ ← Lexical.statement rules limits.patience limits.depth .global s)
      (.text source)

theorem World.run_eq (limits : Limits) (w : World) (source : String) :
    w.run limits source = Runs.request (Eval.answer (.run limits source)) w := by
  show World.request w (Eval.answer (.run limits source)) = _
  unfold World.request Runs.request
  cases Eval.answer (.run limits source) w <;> rfl

/-- The world after some requests, and how they ended. -/
def World.serve (w : World) (requests : List Request) : List Ending × World :=
  Runs.serve Eval.answer requests w

def Watched.serve (w : Watched) (requests : List Request) : List Ending × Watched :=
  Runs.serve Watch.answer requests w

def Lexical.State.serve (s : State) (requests : List Request) : List Ending × State :=
  Runs.serve (Lexical.answer .plain) requests s

/-! ## Without the record -/

theorem Watch.erases_answer (r : Request) : Watch.Erases (Watch.answer r) (Eval.answer r) := by
  cases r with
  | define name v =>
    rw [Watch.answer, Eval.answer]
    exact Watch.erases_lift _
  | run limits source =>
    rw [Watch.answer, Eval.answer]
    exact Watch.erases_run (fun n i s => (Watch.erases_all _ _).statement _ _ s) _ _

theorem Watch.Erases.request {x : Watch Unit} {y : Eval Unit} (h : Watch.Erases x y) (w : Watched) :
    (Runs.request x w).1 = (Runs.request y w.world).1 ∧
      (Runs.request x w).2.world = (Runs.request y w.world).2 := by
  unfold Runs.request
  rw [← h w]
  cases x w with
  | ok => exact ⟨rfl, rfl⟩
  | error => exact ⟨rfl, rfl⟩

/-- A watched session is a session. -/
theorem Watched.serve_world (w : Watched) (requests : List Request) :
    (w.serve requests).1 = (w.world.serve requests).1 ∧
      (w.serve requests).2.world = (w.world.serve requests).2 := by
  induction requests generalizing w with
  | nil => exact ⟨rfl, rfl⟩
  | cons r rest ih =>
    obtain ⟨hending, hworld⟩ := (Watch.erases_answer r).request w
    obtain ⟨hendings, hworlds⟩ := ih (Runs.request (Watch.answer r) w).2
    rw [hworld] at hendings hworlds
    exact ⟨congr (congrArg List.cons hending) hendings, hworlds⟩

/-! ## The start -/

/-- Nothing was done but that natives were installed. -/
structure Installed (natives : List Native) (w : World) (s : State) : Prop where
  surface : SameSurface w s
  next : w.heap.next = 1
  globals : ∀ x v, (w.heap.frame 0).get? x = some v →
    ∃ (i : Nat) (n : Native), natives[i]? = some n ∧ v = n.value i
  code : w.code = (natives.map fun n => Code.host n.act).toArray
  lexical : s.code = (natives.map fun n => Lexical.Code.host n.act).toArray
  distances : w.distances = ∅

theorem installed_start (time : Float) : Installed [] (World.start time) (State.start time) where
  surface := ⟨rfl, rfl, rfl, rfl, rfl, fun _ he => absurd he (Array.not_mem_empty _)⟩
  next := rfl
  globals x v hv := by cases hv
  code := rfl
  lexical := rfl
  distances := rfl

theorem Installed.install {natives : List Native} {w : World} {s : State}
    (h : Installed natives w s) (n : Native) :
    Installed (natives ++ [n]) (w.install n) (s.install n) := by
  have hknown : 0 < w.heap.next := by
    rw [h.next]
    exact Nat.one_pos
  have hsize : w.code.size = natives.length := by simp [h.code]
  have hsize' : s.code.size = natives.length := by simp [h.lexical]
  have hframe : (w.install n).heap.frame 0 =
      (w.heap.frame 0).put n.name (n.value natives.length) := by
    show (w.heap.put 0 n.name (.native ⟨w.code.size, n.name, n.arity⟩)).frame 0 = _
    rw [Heap.frame_put_self hknown, hsize]
    rfl
  refine ⟨{ h.surface with globals := ?_ }, ?_, fun x v hv => ?_, ?_, ?_, h.distances⟩
  · rw [hframe, h.surface.globals, ← hsize']
    rfl
  · exact (Heap.next_put ..).trans h.next
  · rw [hframe] at hv
    by_cases hx : x = n.name
    · subst hx
      rw [Bindings.get?_put_self] at hv
      cases hv
      exact ⟨natives.length, n, by simp, rfl⟩
    · rw [Bindings.get?_put_of_ne _ hx] at hv
      obtain ⟨i, n', hn', rfl⟩ := h.globals x v hv
      refine ⟨i, n', ?_, rfl⟩
      rw [List.getElem?_append_left (List.getElem?_eq_some_iff.1 hn').1]
      exact hn'
  · show w.code.push _ = _
    rw [h.code]
    simp
  · show s.code.push _ = _
    rw [h.lexical]
    simp

theorem installed_create (natives : List Native) (time : Float) :
    Installed natives (World.create natives time) (State.create natives time) := by
  have hall : ∀ rest before w s, Installed before w s →
      Installed (before ++ rest) (rest.foldl World.install w) (rest.foldl State.install s) := by
    intro rest
    induction rest with
    | nil =>
      intro before w s h
      rw [List.append_nil]
      exact h
    | cons n rest ih =>
      intro before w s h
      have hmore := ih _ _ _ (h.install n)
      rwa [List.append_assoc] at hmore
  exact hall natives [] _ _ (installed_start time)

/-- Two new sessions, side by side. -/
def Pair.start (natives : List Native) (time : Float) : Pair :=
  ⟨.start (World.create natives time), State.create natives time, fun _ _ => none⟩

theorem agree_start (natives : List Native) (time : Float) :
    Agree natives none (Pair.start natives time) := by
  have h := installed_create natives time
  have hempty : ∀ i, 0 < i → (World.create natives time).heap.frame i = .empty := by
    intro i hi
    have hsize : (World.create natives time).heap.frames.size ≤ i :=
      Nat.le_trans (Nat.le_of_eq h.next) hi
    unfold Heap.frame
    rw [Array.getElem?_eq_none hsize]
    rfl
  refine ⟨h.surface, ⟨?_, fun i x c hc => (by cases hc), fun i j x y c hc => (by cases hc), ?_⟩, ?_,
    ⟨?_, ?_, ?_⟩, ⟨?_, ?_⟩, fun v hv => by cases hv⟩
  · show 0 < (World.create natives time).heap.next
    rw [h.next]
    exact Nat.one_pos
  · intro i x v hi hv
    rw [show (Pair.start natives time).watched.world.heap.frame i = .empty from hempty i hi] at hv
    cases hv
  · intro i x v hv
    obtain rfl | hi := Nat.eq_zero_or_pos i
    · obtain ⟨j, n, hn, rfl⟩ := h.globals x v hv
      exact .native hn rfl
    · rw [show (Pair.start natives time).watched.world.heap.frame i = .empty from hempty i hi] at hv
      cases hv
  · show (World.create natives time).code.size = (State.create natives time).code.size
    rw [h.code, h.lexical]
    simp
  · intro id _
    cases hn : natives[id]? with
    | some n => exact .native hn
    | none =>
      refine .nothing ?_ ?_
      · show (World.create natives time).code[id]? = none
        rw [h.code]
        simpa using hn
      · show (State.create natives time).code[id]? = none
        rw [h.lexical]
        simpa using hn
  · intro i n hn
    constructor
    · show (World.create natives time).code[i]? = _
      rw [h.code]
      simp [hn]
    · show (State.create natives time).code[i]? = _
      rw [h.lexical]
      simp [hn]
  · intro n P hP
    cases hP
  · intro l _
    show (World.create natives time).distances[l]? = none
    rw [h.distances]
    rfl

/-! ## Sessions side by side -/

variable {natives : List Native} {mayFail : Prop} {p : Pair}

theorem meets_answer (hhost : FairHost mayFail natives) (hp : Agree natives none p) {r : Request}
    (hr : r.Fair natives) :
    Meets natives mayFail 0 p (Watch.answer r) (Lexical.answer .plain r) Any := by
  cases r with
  | define name v =>
    obtain ⟨hq, hgrows⟩ := hp.writeGlobal name (hr.genuine fun _ hmem => by cases hmem)
    exact meets_step rfl rfl hq hgrows trivial
  | run limits source => exact meets_run (simulates hhost _ _) hp (Or.inl ⟨source, rfl⟩)

theorem Meets.request {x : Watch Unit} {y : Lexical.ByName Unit} {i₀ : FrameId}
    (h : Meets natives mayFail i₀ p x y Any) : ∃ ending q, Agree natives none q ∧
      Runs.request x p.watched = (ending, q.watched) ∧
      Runs.request y p.lexical = (ending, q.lexical) := by
  unfold Meets at h
  unfold Runs.request
  generalize x p.watched = r at h
  generalize y p.lexical = r' at h
  cases h with
  | @ok q _ _ agree => exact ⟨_, q, agree, rfl, rfl⟩
  | @error q _ agree => exact ⟨_, q, agree, rfl, rfl⟩

/-- Two sessions that agree still do after the same requests. -/
theorem Agree.serve (hhost : FairHost mayFail natives) (hp : Agree natives none p)
    {requests : List Request} (hrequests : ∀ r ∈ requests, r.Fair natives) :
    ∃ endings q, Agree natives none q ∧ p.watched.serve requests = (endings, q.watched) ∧
      p.lexical.serve requests = (endings, q.lexical) := by
  induction requests generalizing p with
  | nil => exact ⟨[], p, hp, rfl, rfl⟩
  | cons r rest ih =>
    obtain ⟨ending, q, hq, hwatched, hlexical⟩ :=
      (meets_answer hhost hp (hrequests r List.mem_cons_self)).request
    obtain ⟨endings, q', hq', hwatched', hlexical'⟩ :=
      ih hq fun r' hr' => hrequests r' (List.mem_cons_of_mem _ hr')
    refine ⟨ending :: endings, q', hq', ?_, ?_⟩
    · unfold Watched.serve at hwatched' ⊢
      rw [Runs.serve, hwatched]
      dsimp only
      rw [hwatched']
    · unfold Lexical.State.serve at hlexical' ⊢
      rw [Runs.serve, hlexical]
      dsimp only
      rw [hlexical']

/-- A session agrees with one by names that got the same requests from the start. -/
theorem agree_after (hhost : FairHost mayFail natives) (time : Float) {requests : List Request}
    (hrequests : ∀ r ∈ requests, r.Fair natives) : ∃ q, Agree natives none q ∧
      ((Watched.start (World.create natives time)).serve requests).2 = q.watched ∧
      ((World.create natives time).serve requests).2 = q.watched.world ∧
      ((State.create natives time).serve requests).2 = q.lexical := by
  obtain ⟨endings, q, hq, hwatched, hlexical⟩ := (agree_start natives time).serve hhost hrequests
  obtain ⟨-, hworld⟩ := (Watched.start (World.create natives time)).serve_world requests
  have hlast : ((Watched.start (World.create natives time)).serve requests).2 = q.watched :=
    congrArg (·.2) hwatched
  rw [hlast] at hworld
  exact ⟨q, hq, hlast, hworld.symm, congrArg (·.2) hlexical⟩

/-! ## Accepted sources -/

/-- Statements with labels of their own, and the world with their distances. -/
def World.prepare (w : World) (depth : Nat) (raw : List RawStmt) : List (Stmt UseId) × World :=
  let labelled := (Stmt.labelAll raw).run w.nextUse
  (labelled.1, { w with
    hadError := false
    nextUse := labelled.2
    distances := (Scriptling.resolve depth w.distances labelled.1).1.distances })

/-- The statements of a source, prepared. -/
def World.load (w : World) (limits : Limits) (source : String) : List (Stmt UseId) × World :=
  w.prepare limits.depth (read (limits.depth - 5) source).statements

/-- A source is read and resolved without an error. -/
structure World.Accepts (w : World) (limits : Limits) (source : String) : Prop where
  room : 5 ≤ limits.depth
  reading : (read (limits.depth - 5) source).errors = []
  scopes : (Scriptling.resolve limits.depth w.distances (w.load limits source).1).1.errors = #[]

section Accepts

variable {w : World} {limits : Limits} {source : String}

/-- The statements of a source that was read without errors are regular. -/
theorem World.load_regular (w : World) (h : (read (limits.depth - 5) source).errors = []) :
    ∀ s ∈ (w.load limits source).1, Grammar.RegularStmt s.erase := by
  obtain ⟨ss, next, hlabel, herase, -⟩ :=
    Stmt.labelAll_labels (read (limits.depth - 5) source).statements w.nextUse
  rw [World.load, World.prepare, hlabel]
  refine Resolve.regular_all ?_
  rw [herase]
  exact read_regular h

theorem World.Accepts.regular (h : w.Accepts limits source) :
    ∀ s ∈ (w.load limits source).1, Grammar.RegularStmt s.erase :=
  w.load_regular h.reading

/-- An accepted source is executed as the program that it is. -/
theorem World.Accepts.run (h : w.Accepts limits source)
    (execute : Stmt UseId → Eval (Option Value)) :
    Eval.run limits.depth execute (.text source) w =
      Eval.program execute (w.load limits source).1 (w.load limits source).2 := by
  have hroom : Eval.room limits.depth 5 = pure () := if_pos h.room
  have hread : (read (limits.depth - 5) source).errors.forM Eval.reportStatic =
      (pure () : Eval Unit) := by
    rw [h.reading]
    rfl
  have hlabel : Eval.label (read (limits.depth - 5) source).statements
      { w with hadError := false } = .ok (w.load limits source).1
        { w with hadError := false, nextUse := (w.load limits source).2.nextUse } :=
    Eval.label_eq rfl
  have hresolve : Eval.resolve limits.depth (w.load limits source).1
      { w with hadError := false, nextUse := (w.load limits source).2.nextUse } =
      .ok () (w.load limits source).2 := by
    rw [Eval.resolve_regular h.regular]
    have hscopes := h.scopes
    show (Scriptling.resolve limits.depth w.distances (w.load limits source).1).1.errors.toList.forM
      Eval.reportStatic _ = _
    rw [hscopes]
    rfl
  show Eval.source limits.depth execute source { w with hadError := false } = _
  unfold Eval.source
  rw [hroom]
  refine (bind_of_ok rfl).trans ?_
  rw [hread]
  refine (bind_of_ok rfl).trans ((bind_of_ok hlabel).trans ((bind_of_ok rfl).trans ?_))
  refine (bind_of_ok hresolve).trans ?_
  rfl

theorem World.Accepts.scopeErrors (h : w.Accepts limits source) :
    Lexical.scopeErrors limits.depth (read (limits.depth - 5) source).statements = [] := by
  have halike := resolve_alike limits.depth ∅ w.distances
    (read (limits.depth - 5) source).statements 0 w.nextUse
  unfold Lexical.scopeErrors
  rw [halike, Array.toList_eq_nil_iff]
  exact h.scopes

/-- By names, an accepted source is executed without being resolved. -/
theorem World.Accepts.execute (h : w.Accepts limits source) :
    Lexical.answer .plain (.run limits source) =
      Lexical.execute .plain limits (read (limits.depth - 5) source).statements := by
  have hroom : (Runs.room limits.depth 5 : Lexical.ByName Unit) = pure () := if_pos h.room
  have hread : (read (limits.depth - 5) source).errors.forM Lexical.reportStatic = pure () := by
    rw [h.reading]
    rfl
  have hscopes : (Lexical.scopeErrors limits.depth
      (read (limits.depth - 5) source).statements).forM Lexical.reportStatic = pure () := by
    rw [h.scopeErrors]
    rfl
  funext s
  show Lexical.source limits.depth _ source { s with hadError := false } = _
  unfold Lexical.source
  rw [hroom]
  refine (bind_of_ok rfl).trans ?_
  rw [hread]
  refine (bind_of_ok rfl).trans ((bind_of_ok rfl).trans ?_)
  rw [hscopes]
  rfl

end Accepts

/-! ## Distances and names -/

/-- Anyone sees the same of two sessions: what was printed, what was reported, and the globals. -/
structure SameView (w : World) (s : State) : Prop where
  printed : s.printed = w.printed
  reports : s.reports = w.reports
  globals : s.display = w.globals

theorem Agree.sameView {pending : Option Nat} (h : Agree natives pending p) :
    SameView p.watched.world p.lexical := by
  refine ⟨h.surface.printed.symm, h.surface.reports.symm, ?_⟩
  show Heap.frameText ⟨#[p.lexical.globals]⟩ 0 = p.watched.world.heap.frameText 0
  unfold Heap.frameText
  rw [h.surface.globals]
  rfl

/-- Two sessions that agree do the same with an accepted source. -/
theorem Agree.execute {p : Pair} (hhost : FairHost True natives) (hp : Agree natives none p)
    {limits : Limits} {source : String} (h : p.watched.world.Accepts limits source) :
    let r := Runs.request
      (Lexical.execute .plain limits (read (limits.depth - 5) source).statements) p.lexical
    r.1 = (p.watched.world.run limits source).1 ∧
      SameView (p.watched.world.run limits source).2 r.2 := by
  obtain ⟨ending, q, hq, hrun, hexecute⟩ :=
    (meets_answer (r := .run limits source) hhost hp trivial).request
  obtain ⟨hending, hworld⟩ := (Watch.erases_answer (.run limits source)).request p.watched
  rw [h.execute] at hexecute
  rw [hrun] at hending hworld
  dsimp only
  rw [World.run_eq, hexecute, ← hending, ← hworld]
  exact ⟨rfl, hq.sameView⟩

/-- A host binds a global, and a source makes a closure over a local variable of the same name. -/
def closureRequests : List Request :=
  [.define "n" (.text "global"),
    .run ⟨60, 5⟩
      "function make() \x7b var n = \"kept\"; function f() \x7b return n; \x7d return f; \x7d"]

theorem closureRequests_fair : ∀ r ∈ closureRequests, r.Fair Native.standard := by
  intro r hr
  cases hr with
  | head => exact Or.inl rfl
  | tail _ hr =>
    cases hr with
    | head => trivial
    | tail _ hr => cases hr

/-- Another source calls the closure where it has a local of that name itself. -/
def closureSource : String := "\x7b var n = \"other\"; print make()(); n = make; print n; \x7d"

/-- Whatever a session did before, an accepted source does in it what it does by names. -/
theorem accepted_run_by_names (hhost : FairHost True natives) (time : Float)
    {requests : List Request} (hrequests : ∀ r ∈ requests, r.Fair natives) (limits : Limits)
    (source : String) :
    let w := ((World.create natives time).serve requests).2
    let s := ((State.create natives time).serve requests).2
    SameView w s ∧ (w.Accepts limits source →
      let r := Runs.request
        (Lexical.execute .plain limits (read (limits.depth - 5) source).statements) s
      r.1 = (w.run limits source).1 ∧ SameView (w.run limits source).2 r.2) := by
  obtain ⟨q, hq, -, hworld, hlexical⟩ := agree_after hhost time hrequests
  dsimp only
  rw [hworld, hlexical]
  exact ⟨hq.sameView, fun haccepts => hq.execute hhost haccepts⟩

theorem closure_by_names :
    let w := ((World.create Native.standard 0).serve closureRequests).2
    let s := ((State.create Native.standard 0).serve closureRequests).2
    let r := Runs.request (Lexical.execute .plain ⟨60, 5⟩ (read 55 closureSource).statements) s
    r.1 = (w.run ⟨60, 5⟩ closureSource).1 ∧ SameView (w.run ⟨60, 5⟩ closureSource).2 r.2 ∧
      r.2.printed = #["kept", "<fn make>"] := by
  obtain ⟨hending, hview⟩ := (accepted_run_by_names (fairHost_standard True) 0 closureRequests_fair
    ⟨60, 5⟩ closureSource).2 ⟨by decide, by decide +kernel, by decide +kernel⟩
  exact ⟨hending, hview, by decide +kernel⟩

/-- At every evaluation in a session, the chain has a frame for each scope that the walk over the
program had around it, and a distance leads to a frame that binds its name. -/
theorem visits_fit_scopes (hhost : FairHost True natives) (time : Float)
    {requests : List Request} (hrequests : ∀ r ∈ requests, r.Fair natives) :
    let watched := (Watched.start (World.create natives time)).serve requests
    let plain := (World.create natives time).serve requests
    (watched.1 = plain.1 ∧ watched.2.world = plain.2) ∧
      ∀ v ∈ watched.2.visits, ∃ P, watched.2.programs[v.spot.program]? = some P ∧
        (∃ S, P.Visits v.spot.path S v.node) ∧
        ∀ S, P.Visits v.spot.path S v.node → v.Fits S := by
  refine ⟨Watched.serve_world _ requests, fun v hv => ?_⟩
  obtain ⟨q, hq, hlast, -, -⟩ := agree_after hhost time hrequests
  rw [hlast] at hv ⊢
  obtain ⟨P, S, hP, hvisits, hfits⟩ := hq.visits v hv
  refine ⟨P, hP, ⟨S, hvisits⟩, fun S' hvisits' => ?_⟩
  obtain ⟨rfl, -⟩ := hvisits.unique hvisits'
  exact hfits

theorem closure_visits_fit_scopes :
    let w := ((Watched.start (World.create Native.standard 0)).serve
      (closureRequests ++ [.run ⟨60, 5⟩ closureSource])).2
    w.visits.length = 20 ∧ ∀ v ∈ w.visits, ∃ P, w.programs[v.spot.program]? = some P ∧
      ∀ S, P.Visits v.spot.path S v.node → v.Fits S := by
  have hfair : ∀ r ∈ closureRequests ++ [.run ⟨60, 5⟩ closureSource], r.Fair Native.standard := by
    intro r hr
    obtain hr | hr := List.mem_append.1 hr
    · exact closureRequests_fair r hr
    · cases List.mem_singleton.1 hr
      trivial
  refine ⟨by decide +kernel, fun v hv => ?_⟩
  obtain ⟨P, hP, -, hfits⟩ := (visits_fit_scopes (fairHost_standard True) 0 hfair).2 v hv
  exact ⟨P, hP, hfits⟩

end Scriptling
