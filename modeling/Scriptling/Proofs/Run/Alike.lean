-- Worlds alike. Two sessions with the same frames and the same callables may have given their uses
-- different labels, and may have read their functions from other lines. Runs that go in step end in
-- the same way, in worlds that are still alike.
import Scriptling.Proofs.Run.Runs
import Scriptling.Proofs.Scope.Likeness
import Scriptling.Proofs.Scope.Visits
import Scriptling.Source.Lexed

namespace Scriptling

/-! ## What is alike -/

/-- Two uses that have been labelled, with the same distance. -/
def SameUse (w w' : World) (l l' : UseId) : Prop :=
  l < w.nextUse ∧ l' < w'.nextUse ∧ w.distances[l]? = w'.distances[l']?

/-- A text that an action may ask to run. -/
inductive Action.MayRun (text : String) : Action → Prop
  | here {next : Action} : Action.MayRun text (.run (.text text) next)
  | afterClock {next : Float → Action} {t : Float} (later : (next t).MayRun text) :
      Action.MayRun text (.readClock next)
  | afterCall {callee : Value} {arguments : List Value} {next : Value → Action} {v : Value}
      (later : (next v).MayRun text) : Action.MayRun text (.call callee arguments next)
  | afterRun {source : Value} {next : Action} (later : next.MayRun text) :
      Action.MayRun text (.run source next)

/-- Code alike. The tokens of each text that a native may run are related to themselves. -/
inductive LikeCode (T : Token → Token → Prop) (U : UseId → UseId → Prop) : Code → Code → Prop
  | closure {ps ps' : List Token} {ss ss' : List (Stmt UseId)} {chain : Chain}
      (parameters : List.Forall₂ T ps ps') (body : List.Forall₂ (LikeStmt T U) ss ss') :
      LikeCode T U (.closure ps ss chain) (.closure ps' ss' chain)
  | host {act : List Value → Action}
      (texts : ∀ arguments text, (act arguments).MayRun text → ∀ t ∈ (lex text).tokens, T t t) :
      LikeCode T U (.host act) (.host act)

/-- Static errors are the same; runtime errors are the same at related tokens. -/
inductive LikeReport (T : Token → Token → Prop) : Report → Report → Prop
  | static {e : StaticError} : LikeReport T (.static e) (.static e)
  | runtime {t t' : Token} {failure : Failure} (token : T t t') :
      LikeReport T (.runtime ⟨t, failure⟩) (.runtime ⟨t', failure⟩)

inductive LikeStop (T : Token → Token → Prop) : Stop → Stop → Prop
  | failed {t t' : Token} {failure : Failure} (token : T t t') :
      LikeStop T (.failed ⟨t, failure⟩) (.failed ⟨t', failure⟩)
  | overflow : LikeStop T .overflow .overflow
  | fault {f : Fault} : LikeStop T (.fault f) (.fault f)
  | outOfPatience : LikeStop T .outOfPatience .outOfPatience

/-- No distance is recorded for a label that was not given. -/
def World.Fresh (w : World) : Prop := ∀ l, w.nextUse ≤ l → w.distances[l]? = none

/-- Two worlds alike, where `base` and `base'` were reported before they were compared. -/
structure Like (T : Token → Token → Prop) (base base' : List Report) (w w' : World) : Prop where
  heap : w.heap = w'.heap
  printed : w.printed = w'.printed
  clock : w.clock = w'.clock
  code : List.Forall₂ (LikeCode T (SameUse w w')) w.code.toList w'.code.toList
  reports : ∃ new new', w.reports.toList = base ++ new ∧ w'.reports.toList = base' ++ new' ∧
    List.Forall₂ (LikeReport T) new new'
  fresh : w.Fresh
  fresh' : w'.Fresh

/-- The uses of a world are still there in a later one, with their distances. -/
structure Later (w v : World) : Prop where
  next : w.nextUse ≤ v.nextUse
  kept : ∀ l < w.nextUse, v.distances[l]? = w.distances[l]?

theorem later_refl (w : World) : Later w w := ⟨Nat.le_refl _, fun _ _ => rfl⟩

theorem Later.trans {w v u : World} (h : Later w v) (h' : Later v u) : Later w u where
  next := Nat.le_trans h.next h'.next
  kept l hl := (h'.kept l (Nat.lt_of_lt_of_le hl h.next)).trans (h.kept l hl)

theorem SameUse.later {w w' v v' : World} (h : Later w v) (h' : Later w' v') {l l' : UseId}
    (hl : SameUse w w' l l') : SameUse v v' l l' := by
  obtain ⟨hl₁, hl₂, hdistance⟩ := hl
  refine ⟨Nat.lt_of_lt_of_le hl₁ h.next, Nat.lt_of_lt_of_le hl₂ h'.next, ?_⟩
  rw [h.kept l hl₁, h'.kept l' hl₂, hdistance]

section Later

variable {T : Token → Token → Prop} {w w' v v' : World}

theorem LikeExpr.later (h : Later w v) (h' : Later w' v') {e e' : Expr UseId}
    (he : LikeExpr T (SameUse w w') e e') : LikeExpr T (SameUse v v') e e' :=
  he.mono (fun _ _ _ ht => ht) fun _ _ hl => hl.later h h'

theorem LikeStmt.later (h : Later w v) (h' : Later w' v') {s s' : Stmt UseId}
    (hs : LikeStmt T (SameUse w w') s s') : LikeStmt T (SameUse v v') s s' :=
  hs.mono (fun _ _ _ ht => ht) fun _ _ hl => hl.later h h'

theorem LikeCode.later (h : Later w v) (h' : Later w' v') {c c' : Code}
    (hc : LikeCode T (SameUse w w') c c') : LikeCode T (SameUse v v') c c' := by
  cases hc with
  | closure parameters body => exact .closure parameters (body.imp fun _ _ => LikeStmt.later h h')
  | host texts => exact .host texts

end Later

/-! ## Runs in step -/

variable {T : Token → Token → Prop} {base base' : List Report} {w w' v v' : World} {α β : Type}

/-- Two runs from `w` and `w'` have ended in the same way. -/
inductive EndedInStep (T : Token → Token → Prop) (base base' : List Report) (w w' : World) :
    EStateM.Result Stop World α → EStateM.Result Stop World α → Prop
  | ok {a : α} {v v' : World} (like : Like T base base' v v') (later : Later w v)
      (later' : Later w' v') : EndedInStep T base base' w w' (.ok a v) (.ok a v')
  | error {stop stop' : Stop} {v v' : World} (stops : LikeStop T stop stop')
      (like : Like T base base' v v') (later : Later w v) (later' : Later w' v') :
      EndedInStep T base base' w w' (.error stop v) (.error stop' v')

/-- From `w` and `w'`, the two runs end in the same way. -/
def InStep (T : Token → Token → Prop) (base base' : List Report) (w w' : World) (x y : Eval α) :
    Prop := EndedInStep T base base' w w' (x w) (y w')

theorem EndedInStep.since {r r' : EStateM.Result Stop World α} (hv : Later w v) (hv' : Later w' v')
    (h : EndedInStep T base base' v v' r r') : EndedInStep T base base' w w' r r' := by
  cases h with
  | ok like later later' => exact .ok like (hv.trans later) (hv'.trans later')
  | error stops like later later' => exact .error stops like (hv.trans later) (hv'.trans later')

/-- If one of two runs comes to its end, so does the other. -/
theorem InStep.completes {x y : Eval α} (h : InStep T base base' w w' x y) {a : α}
    (hx : x w = .ok a v) :
    ∃ v', y w' = .ok a v' ∧ Like T base base' v v' ∧ Later w v ∧ Later w' v' := by
  unfold InStep at h
  rw [hx] at h
  generalize y w' = r' at h
  cases h with
  | ok like later later' => exact ⟨_, rfl, like, later, later'⟩

theorem inStep_pure (h : Like T base base' w w') (a : α) :
    InStep T base base' w w' (pure a) (pure a) := .ok h (later_refl w) (later_refl w')

theorem inStep_throw (h : Like T base base' w w') {stop stop' : Stop}
    (hstop : LikeStop T stop stop') :
    InStep T base base' w w' (throw stop : Eval α) (throw stop') :=
  .error hstop h (later_refl w) (later_refl w')

theorem InStep.bind {x y : Eval α} {f g : α → Eval β} (h : InStep T base base' w w' x y)
    (hnext : ∀ v v' a, Like T base base' v v' → Later w v → Later w' v' →
      InStep T base base' v v' (f a) (g a)) :
    InStep T base base' w w' (x >>= f) (y >>= g) := by
  unfold InStep at h ⊢
  rw [bind_eq, bind_eq]
  generalize x w = r at h ⊢
  generalize y w' = r' at h ⊢
  cases h with
  | ok like later later' => exact (hnext _ _ _ like later later').since later later'
  | error stops like later later' => exact .error stops like later later'

theorem InStep.tryCatch {x y : Eval α} {handle handle' : Stop → Eval α}
    (h : InStep T base base' w w' x y)
    (hhandle : ∀ v v' stop stop', Like T base base' v v' → LikeStop T stop stop' →
      InStep T base base' v v' (handle stop) (handle' stop')) :
    InStep T base base' w w' (tryCatch x handle) (tryCatch y handle') := by
  unfold InStep at h ⊢
  rw [tryCatch_eq, tryCatch_eq]
  generalize x w = r at h ⊢
  generalize y w' = r' at h ⊢
  cases h with
  | ok like later later' => exact .ok like later later'
  | error stops like later later' =>
    exact (hhandle _ _ _ _ like stops).since later later'

/-- A stack overflow that becomes an error on the way out. -/
theorem InStep.inCall {x y : Eval α} (h : InStep T base base' w w' x y) {t t' : Token}
    (ht : T t t') : InStep T base base' w w' (Runs.inCall t x) (Runs.inCall t' y) := by
  refine h.tryCatch fun v v' stop stop' like stops => ?_
  cases stops with
  | overflow => exact inStep_throw like (.failed ht)
  | failed token => exact inStep_throw like (.failed token)
  | fault => exact inStep_throw like .fault
  | outOfPatience => exact inStep_throw like .outOfPatience

theorem InStep.atTop {x y : Eval α} (h : InStep T base base' w w' x y) {line line' : Int}
    (ht : T (.endAt line) (.endAt line')) :
    InStep T base base' w w' (Runs.atTop line x) (Runs.atTop line' y) := h.inCall ht

/-- A loop, whose turns are in step from all later worlds. -/
theorem inStep_repeatWhile {condition condition' : Eval Bool} {body body' : Eval (Option Value)}
    (hcondition : ∀ v v', Like T base base' v v' → Later w v → Later w' v' →
      InStep T base base' v v' condition condition')
    (hbody : ∀ v v', Like T base base' v v' → Later w v → Later w' v' →
      InStep T base base' v v' body body')
    (patience : Nat) (like : Like T base base' v v') (hv : Later w v) (hv' : Later w' v') :
    InStep T base base' v v' (Eval.repeatWhile condition body patience)
      (Eval.repeatWhile condition' body' patience) := by
  induction patience generalizing v v' with
  | zero => exact inStep_throw like .outOfPatience
  | succ patience ih =>
    refine (hcondition v v' like hv hv').bind fun v₁ v₁' b like₁ later₁ later₁' => ?_
    have hv₁ := hv.trans later₁
    have hv₁' := hv'.trans later₁'
    cases b with
    | false => exact inStep_pure like₁ none
    | true =>
      refine (hbody v₁ v₁' like₁ hv₁ hv₁').bind fun v₂ v₂' r like₂ later₂ later₂' => ?_
      cases r with
      | some a => exact inStep_pure like₂ (some a)
      | none => exact ih like₂ (hv₁.trans later₂) (hv₁'.trans later₂')

/-- What a native asks for, where its calls and the texts that it runs are in step. -/
theorem inStep_perform {call call' : Value → List Value → Eval Value} {run run' : Value → Eval Unit}
    {action : Action}
    (hclock : ∀ v v', Like T base base' v v' →
      InStep T base base' v v' Eval.readClock Eval.readClock)
    (hcall : ∀ v v' f vs, Like T base base' v v' →
      InStep T base base' v v' (call f vs) (call' f vs))
    (hrun : ∀ v v' source, (∀ text, source = .text text → action.MayRun text) →
      Like T base base' v v' → InStep T base base' v v' (run source) (run' source))
    (like : Like T base base' w w') :
    InStep T base base' w w' (action.perform call run) (action.perform call' run') := by
  induction action generalizing w w' with
  | done a => exact inStep_pure like a
  | fail f => exact inStep_throw like .fault
  | readClock next ih =>
    refine (hclock w w' like).bind fun v v' t hv _ _ => ih t ?_ hv
    exact fun v v' source h => hrun v v' source fun text htext => .afterClock (h text htext)
  | call callee arguments next ih =>
    refine (hcall w w' callee arguments like).bind fun v v' a hv _ _ => ih a ?_ hv
    exact fun v v' source h => hrun v v' source fun text htext => .afterCall (h text htext)
  | run source next ih =>
    refine (hrun w w' source ?_ like).bind fun v v' _ hv _ _ => ih ?_ hv
    · rintro text rfl
      exact .here
    · exact fun v v' source h => hrun v v' source fun text htext => .afterRun (h text htext)

/-! ## Single steps -/

theorem inStep_room (h : Like T base base' w w') (depth n : Nat) :
    InStep T base base' w w' (Eval.room depth n) (Eval.room depth n) := by
  unfold Eval.room
  split
  · exact inStep_pure h ()
  · exact inStep_throw h .overflow

/-- Results alike of an operator. -/
inductive LikeResult (T : Token → Token → Prop) :
    Except RuntimeError Value → Except RuntimeError Value → Prop
  | ok {v : Value} : LikeResult T (.ok v) (.ok v)
  | error {t t' : Token} {failure : Failure} (token : T t t') :
      LikeResult T (.error ⟨t, failure⟩) (.error ⟨t', failure⟩)

theorem inStep_ofOperator (h : Like T base base' w w') {r r' : Except RuntimeError Value}
    (hr : LikeResult T r r') :
    InStep T base base' w w' (Eval.ofOperator r) (Eval.ofOperator r') := by
  cases hr with
  | ok => exact inStep_pure h _
  | error token => exact inStep_throw h (.failed token)

section Operators

variable {t t' : Token}

theorem likeResult_unary (hT : Lookalike T) (ht : T t t') (a : Value) :
    LikeResult T (Value.unary t a) (Value.unary t' a) := by
  unfold Value.unary
  rw [hT.kind ht, hT.lexeme ht]
  split
  · cases a.number? with
    | some x => exact .ok
    | none => exact .error ht
  · exact .ok
  · exact .error ht

theorem likeResult_plus (ht : T t t') (a b : Value) :
    LikeResult T (Value.plus t a b) (Value.plus t' a b) := by
  unfold Value.plus
  split
  · exact .ok
  · split
    · exact .ok
    · exact .error ht

theorem likeResult_arithmetic (hT : Lookalike T) (ht : T t t') (x y : Float) :
    LikeResult T (Value.arithmetic t x y) (Value.arithmetic t' x y) := by
  unfold Value.arithmetic
  rw [hT.kind ht, hT.lexeme ht]
  split
  iterate 7 exact .ok
  exact .error ht

theorem likeResult_binary (hT : Lookalike T) (ht : T t t') (a b : Value) :
    LikeResult T (Value.binary t a b) (Value.binary t' a b) := by
  unfold Value.binary
  rw [hT.kind ht]
  split
  · exact .ok
  · exact .ok
  · exact likeResult_plus ht a b
  · split
    · exact likeResult_arithmetic hT ht _ _
    · exact .error ht

end Operators

/-- A step of both runs that leaves the uses alone. -/
theorem inStep_step {x y : Eval α} {a a' : α} (hx : x w = .ok a v) (hy : y w' = .ok a' v')
    (ha : a = a') (h : Like T base base' v v')
    (hkept : v.nextUse = w.nextUse ∧ v.distances = w.distances)
    (hkept' : v'.nextUse = w'.nextUse ∧ v'.distances = w'.distances) :
    InStep T base base' w w' x y := by
  subst ha
  unfold InStep
  rw [hx, hy]
  refine .ok h ⟨Nat.le_of_eq hkept.1.symm, fun l _ => ?_⟩
    ⟨Nat.le_of_eq hkept'.1.symm, fun l _ => ?_⟩
  · rw [hkept.2]
  · rw [hkept'.2]

/-- A step that changes the frames. -/
theorem inStep_heap (h : Like T base base' w w') (f : Heap → Heap) :
    InStep T base base' w w' (modify fun w => { w with heap := f w.heap })
      (modify fun w => { w with heap := f w.heap }) :=
  inStep_step rfl rfl rfl { h with heap := congrArg f h.heap } ⟨rfl, rfl⟩ ⟨rfl, rfl⟩

theorem inStep_print (h : Like T base base' w w') (line : String) :
    InStep T base base' w w' (Eval.print line) (Eval.print line) :=
  inStep_step rfl rfl rfl { h with printed := congrArg (·.push line) h.printed } ⟨rfl, rfl⟩
    ⟨rfl, rfl⟩

theorem inStep_readClock (h : Like T base base' w w') :
    InStep T base base' w w' Eval.readClock Eval.readClock :=
  inStep_step rfl rfl h.clock { h with clock := congrArg (· + World.tick) h.clock } ⟨rfl, rfl⟩
    ⟨rfl, rfl⟩

theorem inStep_openFrame (h : Like T base base' w w') (chain : Chain) :
    InStep T base base' w w' (Eval.openFrame chain) (Eval.openFrame chain) :=
  inStep_step rfl rfl (congrArg (·.next :: chain) h.heap)
    { h with heap := congrArg Heap.grow h.heap } ⟨rfl, rfl⟩ ⟨rfl, rfl⟩

theorem inStep_define (h : Like T base base' w w') (chain : Chain) (name : String) (a : Value) :
    InStep T base base' w w' (Eval.define chain name a) (Eval.define chain name a) :=
  inStep_heap h fun heap => heap.define chain name a

theorem inStep_defineAll (hT : Lookalike T) (h : Like T base base' w w') (chain : Chain)
    {ps ps' : List Token} (hps : List.Forall₂ T ps ps') (vs : List Value) :
    InStep T base base' w w' (Eval.defineAll chain ps vs) (Eval.defineAll chain ps' vs) := by
  induction hps generalizing vs w w' with
  | nil => exact inStep_pure h ()
  | cons hp _ ih =>
    cases vs with
    | nil => exact inStep_pure h ()
    | cons a vs =>
      unfold Eval.defineAll
      rw [hT.lexeme hp]
      exact (inStep_define h chain _ a).bind fun v v' _ like _ _ => ih like vs

/-- Two steps that look a use up go on in the same way. -/
theorem inStep_distance {l l' : UseId} (hl : SameUse w w' l l') {f g : Option Nat → Eval α}
    (hnext : ∀ d, InStep T base base' w w' (f d) (g d)) :
    InStep T base base' w w' (Eval.distance? l >>= f) (Eval.distance? l' >>= g) := by
  have hfound := hnext w.distances[l]?
  unfold InStep at hfound ⊢
  rw [show (Eval.distance? l' >>= g) w' = g w'.distances[l']? w' from rfl, ← hl.2.2]
  exact hfound

theorem inStep_readAt (h : Like T base base' w w') (chain : Chain) (d : Nat) (name : String) :
    InStep T base base' w w' (Eval.readAt chain d name) (Eval.readAt chain d name) := by
  unfold InStep Eval.readAt
  rw [get_bind, get_bind, ← h.heap]
  cases w.heap.getAt chain d name with
  | ok a => exact inStep_pure h a
  | error f => exact inStep_throw h .fault

theorem inStep_assignAt (h : Like T base base' w w') (chain : Chain) (d : Nat) (name : String)
    (a : Value) :
    InStep T base base' w w' (Eval.assignAt chain d name a) (Eval.assignAt chain d name a) := by
  unfold Eval.assignAt
  cases chain[d]? with
  | some i => exact inStep_heap h fun heap => heap.put i name a
  | none => exact inStep_throw h .fault

theorem inStep_readGlobal (hT : Lookalike T) (h : Like T base base' w w') {t t' : Token}
    (ht : T t t') : InStep T base base' w w' (Eval.readGlobal t) (Eval.readGlobal t') := by
  unfold InStep Eval.readGlobal
  rw [get_bind, get_bind, ← h.heap, hT.lexeme ht]
  cases w.heap.get? globalChain t'.lexeme with
  | some a => exact inStep_pure h a
  | none => exact inStep_throw h (.failed ht)

theorem inStep_assignGlobal (hT : Lookalike T) (h : Like T base base' w w') {t t' : Token}
    (ht : T t t') (a : Value) :
    InStep T base base' w w' (Eval.assignGlobal t a) (Eval.assignGlobal t' a) := by
  unfold InStep Eval.assignGlobal
  rw [get_bind, get_bind, ← h.heap, hT.lexeme ht]
  cases w.heap.holder? globalChain t'.lexeme with
  | some i => exact inStep_heap h fun heap => heap.put i t'.lexeme a
  | none => exact inStep_throw h (.failed ht)

/-! ## Callables -/

theorem Like.codeAt (h : Like T base base' w w') (id : Nat) :
    Option.Rel (LikeCode T (SameUse w w')) w.code[id]? w'.code[id]? := by
  have hcode := h.code
  rw [← Array.getElem?_toList, ← Array.getElem?_toList]
  generalize w.code.toList = code at hcode
  generalize w'.code.toList = code' at hcode
  induction hcode generalizing id with
  | nil => exact .none
  | cons hc _ ih =>
    cases id with
    | zero => exact .some hc
    | succ id => exact ih id

/-- Two steps that look a callable up go on in the same way. -/
theorem inStep_codeOf (h : Like T base base' w w') (f : Value) {x y : Option Code → Eval α}
    (hnext : ∀ c c', Option.Rel (LikeCode T (SameUse w w')) c c' →
      InStep T base base' w w' (x c) (y c')) :
    InStep T base base' w w' (Eval.codeOf? f >>= x) (Eval.codeOf? f >>= y) := by
  unfold Eval.codeOf?
  cases f.callable? with
  | none => exact hnext none none .none
  | some c => exact hnext _ _ (h.codeAt c.id)

/-- Two functions alike are made under the same number. -/
theorem inStep_addFunction (h : Like T base base' w w') {name name' : String}
    (hname : name = name') {ps ps' : List Token} (hps : List.Forall₂ T ps ps')
    {ss ss' : List (Stmt UseId)}
    (hss : List.Forall₂ (LikeStmt T (SameUse w w')) ss ss') (chain : Chain) :
    InStep T base base' w w' (modifyGet (·.addFunction name ps ss chain))
      (modifyGet (·.addFunction name' ps' ss' chain)) := by
  subst hname
  have hsize : w.code.size = w'.code.size := h.code.length_eq
  have hvalue : (w.addFunction name ps ss chain).1 = (w'.addFunction name ps' ss' chain).1 := by
    unfold World.addFunction
    rw [hsize, hps.length_eq]
  refine inStep_step rfl rfl hvalue { h with code := ?_ } ⟨rfl, rfl⟩ ⟨rfl, rfl⟩
  show List.Forall₂ _ (w.code.push _).toList (w'.code.push _).toList
  rw [Array.toList_push, Array.toList_push]
  exact List.rel_append h.code (.cons (.closure hps hss) .nil)

/-! ## Reports -/

theorem Like.report (h : Like T base base' w w') {r r' : Report} (hr : LikeReport T r r')
    (b b' : Bool) :
    Like T base base' { w with reports := w.reports.push r, hadError := b }
      { w' with reports := w'.reports.push r', hadError := b' } := by
  obtain ⟨new, new', hnew, hnew', halike⟩ := h.reports
  refine { h with reports := ⟨new ++ [r], new' ++ [r'], ?_, ?_, ?_⟩ }
  · rw [Array.toList_push, hnew, List.append_assoc]
  · rw [Array.toList_push, hnew', List.append_assoc]
  · exact List.rel_append halike (.cons hr .nil)

theorem inStep_reportRuntime (h : Like T base base' w w') {t t' : Token} (ht : T t t')
    (failure : Failure) :
    InStep T base base' w w' (Eval.reportRuntime ⟨t, failure⟩)
      (Eval.reportRuntime ⟨t', failure⟩) :=
  inStep_step rfl rfl rfl (h.report (.runtime ht) w.hadError w'.hadError) ⟨rfl, rfl⟩ ⟨rfl, rfl⟩

end Scriptling
