-- Calls do the same on both sides. A function gets a frame with its parameters on the one side
-- and a cell for each of them on the other; a native makes the same requests of both.
import Scriptling.Proofs.Run.Simulation

namespace Scriptling

open Lexical (CellId Names Site)

variable {natives : List Native} {mayFail : Prop} {patience depth : Nat} {p q : Pair}

theorem Watch.lift_bind {α β : Type} (m : Eval α) (f : α → Eval β) :
    Watch.lift (m >>= f) = Watch.lift m >>= fun a => Watch.lift (f a) := by
  funext w
  have hbind : (m >>= f) w.world = EStateM.bind m f w.world := rfl
  have hbind' : (Watch.lift m >>= fun a => Watch.lift (f a)) w =
      EStateM.bind (Watch.lift m) (fun a => Watch.lift (f a)) w := rfl
  rw [hbind', EStateM.bind, Watch.lift, Watch.lift, hbind, EStateM.bind]
  cases m w.world <;> rfl

/-! ## Functions -/

/-- A parameter is bound, and has a cell. -/
theorem Stands.parameter {n : Nat} {P : Accepted} {scope : Scope} {S : Scopes} {i : FrameId}
    {outer : Chain} {names : Names}
    (hstands : Stands natives p n P (scope :: S) (i :: outer) (.inside names)) {x : String}
    (hnew : scope.binds x = false) {v : Value} (hv : Genuine natives p.watched.world.code v) :
    Meets natives mayFail i p (Watch.lift (Eval.define (i :: outer) x v))
      (Lexical.extend names x v)
      fun q _ names' => Stands natives q n P (scope.put x true :: S) (i :: outer)
        (.inside names') := by
  obtain ⟨j, outer', names', hchain, hsite, hinside, hknown⟩ := hstands.inBlock
  cases hchain
  cases hsite
  have hlink := hstands.new hnew
  obtain ⟨hq₁, hgrows₁⟩ := hstands.agree.newCell hinside hknown hlink
  obtain ⟨hq₂, hgrows₂⟩ := hq₁.write (Links.add_self ..) hv
  have hcovers := hstands.standing.covers.declare hlink p.lexical.cells.size
  refine meets_step (b := (x, p.lexical.cells.size) :: names) rfl rfl hq₂
    (hgrows₁.trans (hgrows₂.weaken (fun _ => rfl) i)) ⟨hq₂, hstands.program, ?_⟩
  refine hstands.standing.declared (hcovers.grow hgrows₂) rfl ?_
  show ((p.watched.world.heap.put i x v).frame i).binds x = true
  rw [Heap.frame_put_self hknown, Bindings.binds_put, decide_eq_true rfl, Bool.true_or]

/-- All parameters of a call are bound. -/
theorem meets_bindAll {n : Nat} {P : Accepted} {scope : Scope} {S : Scopes} {i : FrameId}
    {outer : Chain} {names : Names} {ps : List Token} {vs : List Value}
    (hstands : Stands natives p n P (scope :: S) (i :: outer) (.inside names))
    (hcount : vs.length = ps.length) (hdistinct : (ps.map Token.lexeme).Nodup)
    (hfree : ∀ t ∈ ps, scope.binds t.lexeme = false)
    (hvs : ∀ v ∈ vs, Genuine natives p.watched.world.code v) :
    Meets natives mayFail i p (Watch.lift (Eval.defineAll (i :: outer) ps vs))
      (Lexical.bindAll names ps vs)
      fun q _ names' => Stands natives q n P
        (ps.foldl (fun scope t => scope.put t.lexeme true) scope :: S) (i :: outer)
        (.inside names') := by
  induction ps generalizing p scope names vs with
  | nil =>
    cases vs with
    | nil => exact meets_pure hstands.agree hstands
    | cons v vs => cases hcount
  | cons t ps ih =>
    cases vs with
    | nil => cases hcount
    | cons v vs =>
      rw [List.map_cons, List.nodup_cons] at hdistinct
      rw [Eval.defineAll, Watch.lift_bind]
      refine (hstands.parameter (hfree t List.mem_cons_self) (hvs v List.mem_cons_self)).bind
        fun q _ names' hq hgrows hstands' => ?_
      refine ih hstands' (Nat.succ.inj hcount) hdistinct.2 (fun t' ht' => ?_)
        fun u hu => (hvs u (List.mem_cons_of_mem _ hu)).grow hgrows
      have hne : t'.lexeme ≠ t.lexeme := by
        intro heq
        exact hdistinct.1 (heq ▸ List.mem_map_of_mem ht')
      rw [Bindings.binds_put, decide_eq_false hne, Bool.false_or]
      exact hfree t' (List.mem_cons_of_mem _ ht')

/-- A function is called with as many arguments as it has parameters. -/
theorem meets_closure (h : Simulates natives mayFail patience depth) (hp : Agree natives none p)
    {c : Callable} {ps : List Token} {ss : List (Stmt UseId)} {chain : Chain} {vs : List Value}
    (hcode : p.watched.world.code[c.id]? = some (.closure ps ss chain))
    (hcount : vs.length = ps.length) (hvs : ∀ v ∈ vs, Genuine natives p.watched.world.code v) :
    ∃ names, p.lexical.code[c.id]? = some (.closure ps (Stmt.eraseAll ss) names) ∧
      Meets natives mayFail 0 p
        (do
          let spot ← Watch.originOf (.function c)
          let inner ← Watch.lift (Eval.openFrame chain)
          Watch.lift (Eval.defineAll inner ps vs)
          let result ← Watch.statements patience depth spot inner ss
          return result.getD .nil)
        (do
          let inner ← Lexical.bindAll names ps vs
          let result ← Lexical.statements .plain patience depth (.inside inner) (Stmt.eraseAll ss)
          return result.getD .nil)
        (SameValue natives) := by
  cases hp.code.corresponds c.id (by simp) with
  | nothing hnone => exact absurd (hcode.symm.trans hnone) (by simp)
  | native hn => exact absurd (hcode.symm.trans (hp.code.native _ _ hn).1) (by simp)
  | @function ps' ss' chain' names P S hcode' hlexical program statements distinct covers settled =>
    obtain ⟨rfl, rfl, rfl⟩ : ps' = ps ∧ ss' = ss ∧ chain' = chain := by
      simpa using hcode'.symm.trans hcode
    refine ⟨names, hlexical, Meets.left (q := p) rfl rfl ?_ fun _ => id⟩
    -- the frame of the call, with nothing in it yet
    obtain ⟨hq, hgrows⟩ := hp.newFrame
    have hnone : ∀ x l, p.link p.watched.world.heap.next x ≠ some l := fun x l hl =>
      Nat.lt_irrefl _ (hp.linked.range _ x l hl).2.1
    have hstanding := (covers.grow hgrows).block (n := p.watched.world.heap.next) settled hnone
      hp.linked.nonempty (by simp [Pair.core, Pair.store])
    refine Meets.left (q := p.store p.watched.world.heap.grow p.lexical.globals p.lexical.cells
      p.link) rfl rfl ?_ fun c hc => hgrows.inner hc (Nat.le_refl p.watched.world.heap.next)
    refine (meets_bindAll ⟨hq, program, hstanding⟩ hcount distinct (fun _ _ => rfl) hvs).bind
      fun q₁ _ names₁ _ _ hstands₁ => ?_
    refine (h.statements hstands₁ statements).bind fun q₂ r r' hq₂ _ hr => ?_
    obtain ⟨rfl, hgenuine, -⟩ := hr
    refine meets_pure hq₂ ⟨rfl, ?_⟩
    cases r' with
    | none => exact .plain rfl
    | some v => exact hgenuine v rfl

/-! ## Natives -/

/-- A native makes the same requests of both sides. What it knows is genuine, and stays so. -/
theorem meets_perform {clock : Watch Float} {clock' : Lexical.ByName Float}
    {call : Value → List Value → Watch Value} {call' : Value → List Value → Lexical.ByName Value}
    {run : Value → Watch Unit} {run' : Value → Lexical.ByName Unit}
    (hclock : ∀ {q}, Agree natives none q →
      Meets natives mayFail 0 q clock clock' fun _ t t' => t' = t)
    (hcall : ∀ {q f vs}, Agree natives none q → Genuine natives q.watched.world.code f →
      (∀ v ∈ vs, Genuine natives q.watched.world.code v) → FairCall mayFail f vs.length →
      Meets natives mayFail 0 q (call f vs) (call' f vs) (SameValue natives))
    (hrun : ∀ {q v}, Agree natives none q → ((∃ s, v = .text s) ∨ mayFail) →
      Meets natives mayFail 0 q (run v) (run' v) Any)
    {action : Action} {known : Value → Prop} (hfair : action.Fair mayFail known)
    (hp : Agree natives none p) (hknown : ∀ v, known v → Genuine natives p.watched.world.code v) :
    Meets natives mayFail 0 p (Runs.perform clock call run action)
      (Runs.perform clock' call' run' action) (SameValue natives) := by
  induction action generalizing p known with
  | done v => exact meets_pure hp ⟨rfl, hknown v hfair⟩
  | fail f => exact meets_throw hp hfair
  | readClock next ih =>
    refine (hclock hp).bind fun q t t' hq hgrows ht => ?_
    subst ht
    exact ih t' (hfair t') hq fun v hv => (hknown v hv).grow hgrows
  | call f vs next ih =>
    obtain ⟨hf, hvs, hcount, hnext⟩ := hfair
    refine (hcall hp (hknown f hf) (fun v hv => hknown v (hvs v hv)) hcount).bind
      fun q r r' hq hgrows hr => ?_
    obtain ⟨rfl, hr⟩ := hr
    refine ih r' (hnext r') hq fun v hv => ?_
    obtain rfl | hv := hv
    · exact hr
    · exact (hknown v hv).grow hgrows
  | run source next ih =>
    obtain ⟨hsource, hnext⟩ := hfair
    refine (hrun hp hsource).bind fun q _ _ hq hgrows _ => ?_
    exact ih hnext hq fun v hv => (hknown v hv).grow hgrows

theorem meets_readClock (hp : Agree natives none p) :
    Meets natives mayFail 0 p (Watch.lift Eval.readClock) Lexical.readClock
      fun _ t t' => t' = t := by
  have hq := hp.onSurface
    (w := { p.watched.world with clock := p.watched.world.clock + World.tick })
    (s := { p.lexical with clock := p.lexical.clock + World.tick })
    { hp.surface with clock := congrArg (· + World.tick) hp.surface.clock }
    rfl rfl rfl rfl rfl rfl
  exact meets_step rfl rfl hq (grows_refl _ _) hp.surface.clock.symm

/-- What a native is given, and what it knows by itself, is genuine. -/
theorem Knows.genuine {vs : List Value} {v : Value} (h : Knows natives vs v) {code : Array Code}
    (hvs : ∀ v ∈ vs, Genuine natives code v) : Genuine natives code v := by
  obtain hplain | hmem | ⟨i, n, hn, rfl⟩ := h
  · exact .plain hplain
  · exact hvs v hmem
  · exact .native hn rfl

/-! ## Calls -/

theorem meets_apply (h : ∀ d < depth, Simulates natives mayFail patience d)
    (hp : Agree natives none p) {f : Value} {vs : List Value} {paren : Token}
    (hf : Genuine natives p.watched.world.code f)
    (hvs : ∀ v ∈ vs, Genuine natives p.watched.world.code v) :
    Meets natives mayFail 0 p (Watch.apply patience depth f vs paren)
      (Lexical.apply .plain patience depth f vs paren) (SameValue natives) := by
  obtain hlt | hle := Nat.lt_or_ge depth 7
  · rw [Watch.apply_of_lt hlt, Lexical.apply_of_lt hlt]
    exact meets_throw hp trivial
  obtain ⟨depth, rfl⟩ := Nat.exists_eq_add_of_le' hle
  rw [Watch.apply, Lexical.apply]
  cases hcallable : f.callable? with
  | none => exact meets_throw hp ⟨by simp, by simp⟩
  | some c =>
    dsimp only
    split
    · exact meets_throw hp ⟨by simp, by simp⟩
    · rename_i hcount
      have hcount : vs.length = c.arity := Decidable.not_not.1 hcount
      refine Meets.inCall ((h (depth + 6) (by omega)).invoke hp hf hvs ?_) paren
      cases f with
      | function c' =>
        cases hcallable
        exact hcount
      | native c' =>
        cases hcallable
        exact Or.inr hcount
      | _ => cases hcallable

end Scriptling
