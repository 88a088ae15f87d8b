-- A rejected source leaves no trace. It has used up labels, and the distances found before its
-- errors stay in the table; but worlds that differ in these only answer all later requests alike.
import Scriptling.Proofs.Run.InStep

namespace Scriptling

variable {T : Token → Token → Prop} {base base' : List Report} {w w' : World}

/-! ## Requests in step -/

theorem LikeStop.ending {stop stop' : Stop} (h : LikeStop T stop stop') :
    Ending.ofStop stop = Ending.ofStop stop' := by
  cases h <;> rfl

theorem InStep.request {x y : Eval Unit} (h : InStep T base base' w w' x y) :
    (Runs.request x w).1 = (Runs.request y w').1 ∧
      Like T base base' (Runs.request x w).2 (Runs.request y w').2 := by
  unfold InStep at h
  unfold Runs.request
  generalize x w = r at h
  generalize y w' = r' at h
  cases h with
  | ok like => exact ⟨rfl, like⟩
  | error stops like => exact ⟨stops.ending, like⟩

theorem inStep_answer (hT : Lookalike T) (hself : ∀ text, ∀ t ∈ (lex text).tokens, T t t)
    (hw : Like T base base' w w') (r : Request) :
    InStep T base base' w w' (Eval.answer r) (Eval.answer r) := by
  cases r with
  | define name v => exact inStep_define hw globalChain name v
  | run limits source =>
    exact inStep_run (v := .text source) hT (executesInStep hT base base' limits) hw
      (fun text _ => hself text) limits

theorem Like.run (hT : Lookalike T) (hself : ∀ text, ∀ t ∈ (lex text).tokens, T t t)
    (hw : Like T base base' w w') (limits : Limits) (source : String) :
    (w.run limits source).1 = (w'.run limits source).1 ∧
      Like T base base' (w.run limits source).2 (w'.run limits source).2 := by
  rw [World.run_eq, World.run_eq]
  exact (inStep_answer hT hself hw (.run limits source)).request

/-! ## What a host sees -/

/-- What a request comes to: how it ends, the lines printed and the reports made by it, and the
globals behind it. -/
structure Response where
  ending : Ending
  printed : List String
  reports : List Report
  globals : String
  deriving DecidableEq

/-- The response to a request, and the world behind it. -/
def World.respond (w : World) (r : Request) : Response × World :=
  let (ending, v) := Runs.request (Eval.answer r) w
  (⟨ending, v.printed.toList.drop w.printed.size, v.reports.toList.drop w.reports.size, v.globals⟩,
    v)

/-- The responses to requests in turn. -/
def World.responses (w : World) : List Request → List Response
  | [] => []
  | r :: rest => (w.respond r).1 :: (w.respond r).2.responses rest

/-- What was reported so far can be put aside. -/
theorem Like.rebase (hw : Like T base base' w w') :
    Like T w.reports.toList w'.reports.toList w w' :=
  { hw with reports := ⟨[], [], (List.append_nil _).symm, (List.append_nil _).symm, .nil⟩ }

theorem eq_of_likeReports {rs rs' : List Report} (h : List.Forall₂ (LikeReport Eq) rs rs') :
    rs = rs' := by
  induction h with
  | nil => rfl
  | cons hr _ ih =>
    cases hr with
    | static => rw [ih]
    | runtime token => rw [ih, token]

/-- Where all was reported in step, the same was. -/
theorem Like.reports_eq (hw : Like Eq base base w w') : w.reports = w'.reports := by
  obtain ⟨new, new', hnew, hnew', hsame⟩ := hw.reports
  rw [← Array.toList_inj, hnew, hnew', eq_of_likeReports hsame]

theorem Like.respond (hw : Like Eq base base' w w') (r : Request) :
    (w.respond r).1 = (w'.respond r).1 ∧
      Like Eq w.reports.toList w'.reports.toList (w.respond r).2 (w'.respond r).2 := by
  obtain ⟨hending, hlike⟩ :=
    (inStep_answer lookalike_eq (fun _ _ _ => rfl) hw.rebase r).request
  refine ⟨?_, hlike⟩
  obtain ⟨new, new', hnew, hnew', hsame⟩ := hlike.reports
  have hdrop : ∀ (before : Array Report) rs, (before.toList ++ rs).drop before.size = rs :=
    fun before rs => List.drop_left
  have hglobals := congrArg (·.chainHead globalChain) hlike.heap
  unfold World.respond World.globals
  dsimp only at hglobals ⊢
  rw [hending, hlike.printed, hw.printed, hglobals, hnew, hnew', hdrop, hdrop,
    eq_of_likeReports hsame]

/-- Worlds alike answer all requests in the same way. -/
theorem Like.responses (hw : Like Eq base base' w w') (requests : List Request) :
    w.responses requests = w'.responses requests := by
  induction requests generalizing w w' base base' with
  | nil => rfl
  | cons r rest ih =>
    obtain ⟨hresponse, hlike⟩ := hw.respond r
    rw [World.responses, World.responses, hresponse, ih hlike]

/-! ## Worlds that were reached -/

theorem like_create (hself : ∀ text, ∀ t ∈ (lex text).tokens, T t t) (natives : List Native)
    (time : Float) :
    let w := World.create natives time
    Like T w.reports.toList w.reports.toList w w := by
  have h := installed_create natives time
  have hfresh : (World.create natives time).Fresh := by
    intro l _
    rw [h.distances]
    rfl
  refine ⟨rfl, rfl, rfl, ?_, ?_, hfresh, hfresh⟩
  · rw [h.code]
    refine List.forall₂_same.2 fun c hc => ?_
    obtain ⟨n, -, rfl⟩ := List.mem_map.1 hc
    exact .host fun _ text _ => hself text
  · exact ⟨[], [], (List.append_nil _).symm, (List.append_nil _).symm, .nil⟩

/-- A world that was reached is like itself: no distance is recorded for a label that was not
given, and no function has such a label. Its functions hold tokens only that are related to
themselves, if this is so for all tokens that are read. -/
theorem like_reached (hT : Lookalike T) (hself : ∀ text, ∀ t ∈ (lex text).tokens, T t t)
    (natives : List Native) (time : Float) (requests : List Request) :
    let w := ((World.create natives time).serve requests).2
    Like T w.reports.toList w.reports.toList w w := by
  have hserve : ∀ w, Like T w.reports.toList w.reports.toList w w →
      Like T (w.serve requests).2.reports.toList (w.serve requests).2.reports.toList
        (w.serve requests).2 (w.serve requests).2 := by
    induction requests with
    | nil => exact fun w hw => hw
    | cons r rest ih => exact fun w hw => ih _ (inStep_answer hT hself hw r).request.2.rebase
  exact hserve _ (like_create hself natives time)

/-! ## After a rejected source -/

/-- A world is like what it was before a source was rejected. -/
theorem Like.afterReject (hw : Like T base base' w w') (limits : Limits) (source : String) :
    Like T (w.reject limits source).reports.toList w'.reports.toList (w.reject limits source)
      w' := by
  have hlater := w.reject_later limits source
  exact { hw.rebase with
    code := hw.code.imp fun _ _ hc => hc.later hlater (later_refl w')
    reports := ⟨[], [], (List.append_nil _).symm, (List.append_nil _).symm, .nil⟩
    fresh := hw.fresh.reject limits source }

theorem World.Rejects.request {limits : Limits} {source : String} (h : w.Rejects limits source) :
    w.run limits source = (.finished, w.reject limits source) := by
  rw [World.run_eq]
  unfold Runs.request
  rw [Eval.answer, h.run]

theorem World.reject_runtimeErrors (w : World) (limits : Limits) (source : String) :
    (w.reject limits source).runtimeErrors = w.runtimeErrors := by
  unfold World.runtimeErrors World.reject
  dsimp only
  rw [Array.toList_append, List.filterMap_append, List.filterMap_map]
  have hnone : (w.objections limits source).filterMap (Report.runtime? ∘ Report.static) = [] :=
    List.filterMap_eq_nil_iff.2 fun _ _ => rfl
  rw [hnone, List.append_nil]

/-- Nothing has happened to what programs work on. -/
structure Untouched (w v : World) : Prop where
  heap : v.heap = w.heap
  code : v.code = w.code
  printed : v.printed = w.printed
  clock : v.clock = w.clock

/-- Whatever a session did before, a source with a static error does nothing in it but to report its
static errors, and all later requests are answered as if it had never been run. -/
theorem rejected_run_leaves_no_trace (natives : List Native) (time : Float)
    (requests : List Request) (limits : Limits) (source : String) :
    let w := ((World.create natives time).serve requests).2
    w.Rejects limits source →
      let v := (w.run limits source).2
      (w.run limits source).1 = .finished ∧ Untouched w v ∧ v.globals = w.globals ∧
        v.runtimeErrors = w.runtimeErrors ∧
        v.reports.toList = w.reports.toList ++ (w.objections limits source).map Report.static ∧
        ∀ later, v.responses later = w.responses later := by
  have hself := like_reached lookalike_eq (fun _ _ _ => rfl) natives time requests
  intro w hrejects
  rw [hrejects.request]
  refine ⟨rfl, ⟨rfl, rfl, rfl, rfl⟩, rfl, w.reject_runtimeErrors limits source, ?_, ?_⟩
  · exact Array.toList_append
  · exact fun later => (hself.afterReject limits source).responses later

/-- A source with one use that gets a distance before an error is found. -/
def halfResolved : String := "\x7b var n = 1; print n; \x7d return n;"

theorem halfResolved_leaves_no_trace :
    let w := ((World.create Native.standard 0).serve closureRequests).2
    let v := (w.run ⟨60, 5⟩ halfResolved).2
    (w.distances[w.nextUse]? = none ∧ v.distances[w.nextUse]? = some 0) ∧ Untouched w v ∧
      v.responses [.run ⟨60, 5⟩ closureSource] = w.responses [.run ⟨60, 5⟩ closureSource] ∧
      (v.responses [.run ⟨60, 5⟩ closureSource]).map (·.printed) = [["kept", "<fn make>"]] := by
  have hrejects : ((World.create Native.standard 0).serve closureRequests).2.Rejects ⟨60, 5⟩
      halfResolved := ⟨by decide, by decide +kernel⟩
  obtain ⟨-, huntouched, -, -, -, hlater⟩ := rejected_run_leaves_no_trace Native.standard 0
    closureRequests ⟨60, 5⟩ halfResolved hrejects
  refine ⟨⟨by decide +kernel, by decide +kernel⟩, huntouched, hlater _, ?_⟩
  decide +kernel

end Scriptling
