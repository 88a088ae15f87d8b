-- Two runs that meet. `Meets` says of a watched run and a run by names that they end in the same
-- way, with the agreement kept, and that the results are related. Its laws follow the two runs
-- step by step, together or one of them alone.
import Scriptling.Proofs.Run.Agreement

namespace Scriptling

/-- How a program may stop: a host stops it only where it may fail, and no operator is unknown. -/
def Allowed (mayFail : Prop) : Stop → Prop
  | .failed e => e.Known
  | .fault _ => mayFail
  | .overflow | .outOfPatience => True

variable {natives : List Native} {mayFail : Prop} {α β γ δ : Type}

/-- Two runs from `p` have ended in the same way. -/
inductive Ended (natives : List Native) (mayFail : Prop) (i₀ : FrameId) (p : Pair)
    (R : Pair → α → β → Prop) :
    EStateM.Result Stop Watched α → EStateM.Result Stop Lexical.State β → Prop
  | ok {q : Pair} {a : α} {b : β} (agree : Agree natives none q) (grows : Grows i₀ p.core q.core)
      (result : R q a b) : Ended natives mayFail i₀ p R (.ok a q.watched) (.ok b q.lexical)
  | error {q : Pair} {stop : Stop} (agree : Agree natives none q)
      (grows : Grows i₀ p.core q.core) (allowed : Allowed mayFail stop) :
      Ended natives mayFail i₀ p R (.error stop q.watched) (.error stop q.lexical)

/-- Started from `p`, the two runs end in the same way. -/
def Meets (natives : List Native) (mayFail : Prop) (i₀ : FrameId) (p : Pair) (x : Watch α)
    (y : Lexical.ByName β) (R : Pair → α → β → Prop) : Prop :=
  Ended natives mayFail i₀ p R (x p.watched) (y p.lexical)

section Laws

variable {i₀ : FrameId} {p : Pair} {R : Pair → α → β → Prop} {R' : Pair → γ → δ → Prop}

theorem meets_pure (h : Agree natives none p) {a : α} {b : β} (hresult : R p a b) :
    Meets natives mayFail i₀ p (pure a) (pure b) R := .ok h (grows_refl _ _) hresult

theorem meets_throw (h : Agree natives none p) {stop : Stop} (hallowed : Allowed mayFail stop) :
    Meets natives mayFail i₀ p (throw stop) (throw stop) R := .error h (grows_refl _ _) hallowed

/-- A step of both runs. -/
theorem meets_step {x : Watch α} {y : Lexical.ByName β} {q : Pair} {a : α} {b : β}
    (hx : x p.watched = .ok a q.watched) (hy : y p.lexical = .ok b q.lexical)
    (h : Agree natives none q) (hgrows : Grows i₀ p.core q.core) (hresult : R q a b) :
    Meets natives mayFail i₀ p x y R := by
  unfold Meets
  rw [hx, hy]
  exact .ok h hgrows hresult

theorem Ended.rebase {i : FrameId} {q : Pair} {r : EStateM.Result Stop Watched α}
    {r' : EStateM.Result Stop Lexical.State β} (h : Ended natives mayFail i q R r r')
    (hgrows : ∀ c, Grows i q.core c → Grows i₀ p.core c) : Ended natives mayFail i₀ p R r r' := by
  cases h with
  | ok agree grows result => exact .ok agree (hgrows _ grows) result
  | error agree grows allowed => exact .error agree (hgrows _ grows) allowed

theorem Meets.mono {x : Watch α} {y : Lexical.ByName β} {Q : Pair → α → β → Prop}
    (h : Meets natives mayFail i₀ p x y R)
    (hR : ∀ q a b, Agree natives none q → Grows i₀ p.core q.core → R q a b → Q q a b) :
    Meets natives mayFail i₀ p x y Q := by
  unfold Meets at h ⊢
  generalize x p.watched = r at h ⊢
  generalize y p.lexical = r' at h ⊢
  cases h with
  | ok agree grows result => exact .ok agree grows (hR _ _ _ agree grows result)
  | error agree grows allowed => exact .error agree grows allowed

theorem Meets.bind {x : Watch α} {y : Lexical.ByName β} {f : α → Watch γ}
    {g : β → Lexical.ByName δ} (h : Meets natives mayFail i₀ p x y R)
    (hnext : ∀ q a b, Agree natives none q → Grows i₀ p.core q.core → R q a b →
      Meets natives mayFail i₀ q (f a) (g b) R') :
    Meets natives mayFail i₀ p (x >>= f) (y >>= g) R' := by
  unfold Meets at h ⊢
  rw [bind_eq, bind_eq]
  generalize x p.watched = r at h ⊢
  generalize y p.lexical = r' at h ⊢
  cases h with
  | @ok q a b agree grows result =>
    exact (hnext q a b agree grows result).rebase fun c hc => grows.trans hc
  | error agree grows allowed => exact .error agree grows allowed

/-- A step of the watched run alone. -/
theorem Meets.left {x : Watch α} {f : α → Watch γ} {y : Lexical.ByName δ} {q : Pair} {a : α}
    (hx : x p.watched = .ok a q.watched) (hq : q.lexical = p.lexical) {i : FrameId}
    (hnext : Meets natives mayFail i q (f a) y R')
    (hgrows : ∀ c, Grows i q.core c → Grows i₀ p.core c) :
    Meets natives mayFail i₀ p (x >>= f) y R' := by
  unfold Meets at hnext ⊢
  rw [bind_of_ok hx, ← hq]
  exact hnext.rebase hgrows

/-- A step of the run by names alone. -/
theorem Meets.right {x : Watch γ} {y : Lexical.ByName β} {g : β → Lexical.ByName δ} {q : Pair}
    {b : β} (hy : y p.lexical = .ok b q.lexical) (hq : q.watched = p.watched) {i : FrameId}
    (hnext : Meets natives mayFail i q x (g b) R')
    (hgrows : ∀ c, Grows i q.core c → Grows i₀ p.core c) :
    Meets natives mayFail i₀ p x (y >>= g) R' := by
  unfold Meets at hnext ⊢
  rw [bind_of_ok hy, ← hq]
  exact hnext.rebase hgrows

/-- The watched run goes on as another one from elsewhere. -/
theorem Meets.leap {x x' : Watch α} {y : Lexical.ByName β} {q : Pair}
    (h : Meets natives mayFail i₀ q x' y R) (hx : x p.watched = x' q.watched)
    (hq : q.lexical = p.lexical) (hcore : q.core = p.core) :
    Meets natives mayFail i₀ p x y R := by
  unfold Meets at h ⊢
  rw [hx, ← hq]
  exact h.rebase fun c hc => hcore ▸ hc

/-- The run by names makes something more of its result. -/
theorem Meets.returns {x : Watch α} {y : Lexical.ByName β} {g : β → δ} {Q : Pair → α → δ → Prop}
    (h : Meets natives mayFail i₀ p x y fun q a b => Q q a (g b)) :
    Meets natives mayFail i₀ p x (do return g (← y)) Q := by
  unfold Meets at h ⊢
  rw [bind_eq]
  generalize x p.watched = r at h ⊢
  generalize y p.lexical = r' at h ⊢
  cases h with
  | ok agree grows result => exact .ok agree grows result
  | error agree grows allowed => exact .error agree grows allowed

theorem Meets.tryCatch {x : Watch α} {y : Lexical.ByName β} {handle : Stop → Watch α}
    {handle' : Stop → Lexical.ByName β} (h : Meets natives mayFail i₀ p x y R)
    (hhandle : ∀ q stop, Agree natives none q → Grows i₀ p.core q.core → Allowed mayFail stop →
      Meets natives mayFail i₀ q (handle stop) (handle' stop) R) :
    Meets natives mayFail i₀ p (tryCatch x handle) (tryCatch y handle') R := by
  unfold Meets at h ⊢
  rw [tryCatch_eq, tryCatch_eq]
  generalize x p.watched = r at h ⊢
  generalize y p.lexical = r' at h ⊢
  cases h with
  | ok agree grows result => exact .ok agree grows result
  | @error q stop agree grows allowed =>
    exact (hhandle q stop agree grows allowed).rebase fun c hc => grows.trans hc

/-- What links nothing in the frames that were there may stand for what does. -/
theorem Meets.widen {x : Watch α} {y : Lexical.ByName β} (hp : Agree natives none p)
    (h : Meets natives mayFail 0 p x y R) (i₀ : FrameId) : Meets natives mayFail i₀ p x y R := by
  have hnone : ∀ {q : Pair}, Agree natives none q → ∀ z, q.link 0 z = none := by
    intro q hq z
    cases hz : q.link 0 z with
    | none => rfl
    | some c => exact absurd (hq.linked.range 0 z c hz).1 (Nat.lt_irrefl 0)
  unfold Meets at h ⊢
  generalize x p.watched = r at h ⊢
  generalize y p.lexical = r' at h ⊢
  cases h with
  | ok agree grows result =>
    refine .ok agree (grows.weaken (fun z => ?_) i₀) result
    exact (hnone agree z).trans (hnone hp z).symm
  | error agree grows allowed =>
    refine .error agree (grows.weaken (fun z => ?_) i₀) allowed
    exact (hnone agree z).trans (hnone hp z).symm

end Laws

/-! ## Steps that look at nothing -/

section Steps

variable {i₀ : FrameId} {p : Pair}

/-- The two runs give the same value, and it is a genuine one. -/
def SameValue (natives : List Native) (q : Pair) (v v' : Value) : Prop :=
  v' = v ∧ Genuine natives q.watched.world.code v

/-- Nothing is asked of the results. -/
def Any (_ : Pair) (_ : α) (_ : β) : Prop := True

theorem meets_room (h : Agree natives none p) (depth n : Nat) :
    Meets natives mayFail i₀ p (Runs.room depth n) (Runs.room depth n)
      fun q _ _ => q = p := by
  unfold Runs.room
  split
  · exact meets_pure h rfl
  · exact meets_throw h trivial

/-- The value of an operation, or the error that it ends with. -/
def FairResult : Except RuntimeError Value → Prop
  | .ok v => v.callable? = none
  | .error e => e.Known

theorem meets_ofOperator (h : Agree natives none p) {result : Except RuntimeError Value}
    (hresult : FairResult result) :
    Meets natives mayFail i₀ p (Runs.ofOperator result) (Runs.ofOperator result)
      (SameValue natives) := by
  cases result with
  | ok v => exact meets_pure h ⟨rfl, .plain hresult⟩
  | error e => exact meets_throw h hresult

theorem fairResult_unary {operator : Token} (hoperator : operator.kind ∈ Grammar.unaryKinds)
    (v : Value) : FairResult (Value.unary operator v) := by
  have hkind : operator.kind = .bang ∨ operator.kind = .minus := by
    simpa [Grammar.unaryKinds] using hoperator
  unfold Value.unary
  obtain hkind | hkind := hkind
  · rw [hkind]
    exact rfl
  · rw [hkind]
    cases v.number? with
    | some x => exact rfl
    | none => exact ⟨by simp, by simp⟩

theorem fairResult_plus (operator : Token) (v v' : Value) :
    FairResult (Value.plus operator v v') := by
  unfold Value.plus
  split
  · exact rfl
  · split
    · exact rfl
    · exact ⟨by simp, by simp⟩

theorem fairResult_arithmetic {operator : Token} (hoperator : operator.kind ∈ Grammar.binaryKinds)
    (hequal : operator.kind ≠ .equalEqual) (hbang : operator.kind ≠ .bangEqual)
    (hplus : operator.kind ≠ .plus) (x y : Float) :
    FairResult (Value.arithmetic operator x y) := by
  unfold Value.arithmetic
  split
  iterate 7 exact rfl
  · simp_all [Grammar.binaryKinds]

theorem fairResult_binary {operator : Token} (hoperator : operator.kind ∈ Grammar.binaryKinds)
    (v v' : Value) : FairResult (Value.binary operator v v') := by
  unfold Value.binary
  split
  · exact rfl
  · exact rfl
  · exact fairResult_plus operator v v'
  · rename_i hequal hbang hplus
    split
    · exact fairResult_arithmetic hoperator hequal hbang hplus _ _
    · exact ⟨by simp, by simp⟩

/-- A stack overflow that becomes an error on the way out. -/
theorem Meets.inCall {x : Watch α} {y : Lexical.ByName β} {R : Pair → α → β → Prop}
    (h : Meets natives mayFail i₀ p x y R) (paren : Token) :
    Meets natives mayFail i₀ p (Runs.inCall paren x) (Runs.inCall paren y) R := by
  refine h.tryCatch fun q stop agree _ allowed => ?_
  cases stop with
  | overflow => exact meets_throw agree ⟨by simp, by simp⟩
  | _ => exact meets_throw agree allowed

theorem Meets.atTop {x : Watch α} {y : Lexical.ByName β} {R : Pair → α → β → Prop}
    (h : Meets natives mayFail i₀ p x y R) (line : Int) :
    Meets natives mayFail i₀ p (Runs.atTop line x) (Runs.atTop line y) R := by
  refine h.tryCatch fun q stop agree _ allowed => ?_
  cases stop with
  | overflow => exact meets_throw agree ⟨by simp, by simp⟩
  | _ => exact meets_throw agree allowed

/-- A loop, where `I` holds before each turn. -/
theorem meets_repeatWhile {I : Pair → Prop} {condition : Watch Bool}
    {condition' : Lexical.ByName Bool} {body : Watch (Option Value)}
    {body' : Lexical.ByName (Option Value)} {R : Pair → Option Value → Option Value → Prop}
    (hcondition : ∀ q, Agree natives none q → I q → Meets natives mayFail i₀ q condition condition'
      fun q' b b' => b' = b ∧ I q')
    (hbody : ∀ q, Agree natives none q → I q → Meets natives mayFail i₀ q body body'
      fun q' r r' => r' = r ∧ R q' r r' ∧ (r = none → I q'))
    (hdone : ∀ q, I q → R q none none) (patience : Nat) (h : Agree natives none p) (hI : I p) :
    Meets natives mayFail i₀ p (Runs.repeatWhile condition body patience)
      (Runs.repeatWhile condition' body' patience) R := by
  induction patience generalizing p with
  | zero => exact meets_throw h trivial
  | succ patience ih =>
    refine (hcondition p h hI).bind fun q b b' agree _ hb => ?_
    obtain ⟨rfl, hI'⟩ := hb
    cases b' with
    | false => exact meets_pure agree (hdone q hI')
    | true =>
      refine (hbody q agree hI').bind fun q' r r' agree' _ hr => ?_
      obtain ⟨rfl, hR, hI''⟩ := hr
      cases r' with
      | some v => exact meets_pure agree' hR
      | none => exact ih agree' (hI'' rfl)

end Steps

end Scriptling
