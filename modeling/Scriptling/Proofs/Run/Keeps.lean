-- Invariants of evaluation. A computation keeps an invariant if it holds behind it wherever it held
-- before it, whether the computation comes to a result or stops early. The laws follow the ways in
-- which computations are put together.
import Scriptling.Proofs.Run.Alike

namespace Scriptling

variable {α β : Type} {I : World → Prop}

/-- The world behind a computation, however it ends. -/
def Eval.behind (x : Eval α) (w : World) : World :=
  match x w with
  | .ok _ v => v
  | .error _ v => v

theorem Eval.behind_of_ok {x : Eval α} {w v : World} {a : α} (h : x w = .ok a v) :
    Eval.behind x w = v := by
  rw [Eval.behind, h]

theorem Eval.behind_of_error {x : Eval α} {w v : World} {stop : Stop} (h : x w = .error stop v) :
    Eval.behind x w = v := by
  rw [Eval.behind, h]

/-- The invariant holds behind the computation if it holds before it. -/
def Keeps (I : World → Prop) (x : Eval α) : Prop := ∀ w, I w → I (Eval.behind x w)

/-! ## Putting computations together -/

theorem keeps_pure (a : α) : Keeps I (pure a) := fun _ h => h

theorem keeps_throw (stop : Stop) : Keeps I (throw stop : Eval α) := fun _ h => h

theorem Keeps.bind {x : Eval α} {f : α → Eval β} (h : Keeps I x) (hf : ∀ a, Keeps I (f a)) :
    Keeps I (x >>= f) := by
  intro w hw
  have hx := h w hw
  unfold Eval.behind at hx ⊢
  rw [bind_eq]
  cases hr : x w with
  | ok a v =>
    rw [hr] at hx
    exact hf a v hx
  | error stop v =>
    rw [hr] at hx
    exact hx

/-- What is read of the world may be relied on in what follows. -/
theorem keeps_get {f : World → Eval α} (h : ∀ w, I w → I (Eval.behind (f w) w)) :
    Keeps I (get >>= f) := h

theorem keeps_modify {f : World → World} (h : ∀ w, I w → I (f w)) : Keeps I (modify f) := h

theorem keeps_modifyGet {f : World → α × World} (h : ∀ w, I w → I (f w).2) :
    Keeps I (modifyGet f) := h

theorem Keeps.tryCatch {x : Eval α} {handle : Stop → Eval α} (h : Keeps I x)
    (hhandle : ∀ stop, Keeps I (handle stop)) : Keeps I (tryCatch x handle) := by
  intro w hw
  have hx := h w hw
  unfold Eval.behind at hx ⊢
  rw [tryCatch_eq]
  cases hr : x w with
  | ok a v =>
    rw [hr] at hx
    exact hx
  | error stop v =>
    rw [hr] at hx
    exact hhandle stop v hx

theorem keeps_room (depth n : Nat) : Keeps I (Eval.room depth n) := by
  unfold Eval.room
  split
  · exact keeps_pure ()
  · exact keeps_throw .overflow

theorem keeps_ofOperator (result : Except RuntimeError Value) :
    Keeps I (Eval.ofOperator result) := by
  cases result with
  | ok v => exact keeps_pure v
  | error e => exact keeps_throw _

theorem keeps_mapM {f : α → Eval β} {as : List α} (h : ∀ a ∈ as, Keeps I (f a)) :
    Keeps I (as.mapM f) := by
  induction as with
  | nil => exact keeps_pure []
  | cons a as ih =>
    rw [List.mapM_cons]
    refine (h a List.mem_cons_self).bind fun b => ?_
    exact (ih fun a' ha' => h a' (List.mem_cons_of_mem _ ha')).bind fun bs => keeps_pure _

theorem keeps_repeatWhile {condition : Eval Bool} {body : Eval (Option Value)}
    (hcondition : Keeps I condition) (hbody : Keeps I body) (patience : Nat) :
    Keeps I (Eval.repeatWhile condition body patience) := by
  induction patience with
  | zero => exact keeps_throw .outOfPatience
  | succ patience ih =>
    refine hcondition.bind fun b => ?_
    cases b with
    | false => exact keeps_pure none
    | true =>
      refine hbody.bind fun r => ?_
      cases r with
      | some v => exact keeps_pure (some v)
      | none => exact ih

/-- What a native asks for, where its calls and the texts that it runs keep the invariant. -/
theorem keeps_perform {call : Value → List Value → Eval Value} {run : Value → Eval Unit}
    {action : Action} (hclock : Keeps I Eval.readClock) (hcall : ∀ f vs, Keeps I (call f vs))
    (hrun : ∀ source, (∀ text, source = .text text → action.MayRun text) → Keeps I (run source)) :
    Keeps I (action.perform call run) := by
  induction action with
  | done v => exact keeps_pure v
  | fail f => exact keeps_throw _
  | readClock next ih =>
    refine hclock.bind fun t => ih t ?_
    exact fun source h => hrun source fun text htext => .afterClock (h text htext)
  | call callee arguments next ih =>
    refine (hcall callee arguments).bind fun v => ih v ?_
    exact fun source h => hrun source fun text htext => .afterCall (h text htext)
  | run source next ih =>
    refine (hrun source ?_).bind fun _ => ih ?_
    · rintro text rfl
      exact .here
    · exact fun source h => hrun source fun text htext => .afterRun (h text htext)

end Scriptling
