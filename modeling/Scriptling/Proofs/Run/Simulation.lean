-- Evaluation by distances is evaluation by names: expressions and statements. Each kind of them
-- does the same on both sides and keeps the agreement, if what it holds does.
import Scriptling.Proofs.Run.Places

namespace Scriptling

open Lexical (CellId Names Site)

variable {natives : List Native} {mayFail : Prop}

/-! ## The whole of evaluation -/

/-- The results of a statement: the same value is returned on both sides if one is, by a function
only, and where none is returned the two sides stand behind the statement. -/
structure Behind (natives : List Native) (b : Bool) (S : Scopes) (chain : Chain) (q : Pair)
    (r : Option Value) (r' : Option Value × Site) : Prop where
  same : r'.1 = r
  genuine : ∀ v, r = some v → Genuine natives q.watched.world.code v
  inFunction : b = false → r = none
  standing : r = none → Standing q.watched.world.heap q.link S chain r'.2

/-- The results of a body of statements. -/
structure Through (natives : List Native) (b : Bool) (q : Pair) (r r' : Option Value) : Prop where
  same : r' = r
  genuine : ∀ v, r = some v → Genuine natives q.watched.world.code v
  inFunction : b = false → r = none

/-- The same values in both lists, all of them genuine. -/
def SameValues (natives : List Native) (q : Pair) (vs vs' : List Value) : Prop :=
  vs' = vs ∧ ∀ v ∈ vs, Genuine natives q.watched.world.code v

/-- Evaluation by distances and evaluation by names do the same, `depth` levels deep. -/
structure Simulates (natives : List Native) (mayFail : Prop) (patience depth : Nat) : Prop where
  expression : ∀ {p : Pair} {n : Nat} {P : Accepted} {S : Scopes} {path : Trail} {chain : Chain}
    {names : Names} {e : Expr UseId}, Sees natives p n P S chain names → ScopedExpr P S path e →
    Meets natives mayFail 0 p (Watch.expression patience depth ⟨n, path⟩ chain e)
      (Lexical.expression .plain patience depth names e.erase) (SameValue natives)
  values : ∀ {p : Pair} {n : Nat} {P : Accepted} {S : Scopes} {path : Trail} {chain : Chain}
    {names : Names} {es : List (Expr UseId)}, Sees natives p n P S chain names →
    (∀ i e, es[i]? = some e → ScopedExpr P S ((i + 1) :: path) e) →
    Meets natives mayFail 0 p (Watch.values patience depth ⟨n, path⟩ chain es)
      (Lexical.values .plain patience depth names (Expr.eraseAll es)) (SameValues natives)
  statement : ∀ {p : Pair} {n : Nat} {P : Accepted} {b : Bool} {S : Scopes} {path : Trail}
    {chain : Chain} {site : Site} {s : Stmt UseId}, Stands natives p n P S chain site →
    ScopedStmt P b S path s →
    Meets natives mayFail (chain.headD 0) p (Watch.statement patience depth ⟨n, path⟩ chain s)
      (Lexical.statement .plain patience depth site s.erase) (Behind natives b (S.after s) chain)
  statements : ∀ {p : Pair} {n : Nat} {P : Accepted} {b : Bool} {S : Scopes} {path : Trail}
    {chain : Chain} {site : Site} {ss : List (Stmt UseId)}, Stands natives p n P S chain site →
    ScopedBody P b S path 0 ss →
    Meets natives mayFail (chain.headD 0) p (Watch.statements patience depth ⟨n, path⟩ chain ss)
      (Lexical.statements .plain patience depth site (Stmt.eraseAll ss)) (Through natives b)
  apply : ∀ {p : Pair} {f : Value} {vs : List Value} {paren : Token}, Agree natives none p →
    Genuine natives p.watched.world.code f →
    (∀ v ∈ vs, Genuine natives p.watched.world.code v) →
    Meets natives mayFail 0 p (Watch.apply patience depth f vs paren)
      (Lexical.apply .plain patience depth f vs paren) (SameValue natives)
  invoke : ∀ {p : Pair} {f : Value} {vs : List Value}, Agree natives none p →
    Genuine natives p.watched.world.code f →
    (∀ v ∈ vs, Genuine natives p.watched.world.code v) → FairCall mayFail f vs.length →
    Meets natives mayFail 0 p (Watch.invoke patience depth f vs)
      (Lexical.invoke .plain patience depth f vs) (SameValue natives)

section Expressions

variable {patience depth : Nat} {p : Pair} {n : Nat} {P : Accepted} {S : Scopes} {path : Trail}
  {chain : Chain} {names : Names}

theorem meets_operator {i₀ : FrameId} (hp : Agree natives none p)
    {result : Except RuntimeError Value} (hresult : FairResult result) :
    Meets natives mayFail i₀ p
      (do Runs.room depth Eval.Levels.operator; Runs.ofOperator result)
      (do Runs.room depth Eval.Levels.operator; Runs.ofOperator result) (SameValue natives) := by
  refine (meets_room hp _ _).bind fun q _ _ hq _ _ => ?_
  exact meets_ofOperator hq hresult

/-- The variable is bound where its distance leads to. -/
theorem Sees.good_variable (h : Sees natives p n P S chain names) {name : Token} {use : UseId}
    (hvisited : P.Visits path S (.expression (.variable name use))) (hbelow : use < P.nextUse)
    (hrecorded : P.found.distances[use]? = S.distance? name.lexeme)
    (hready : S.unfinished name.lexeme = false) :
    Visit.Good p.watched.programs
      ⟨⟨n, path⟩, .expression (.variable name use), chain, p.watched.world⟩ := by
  refine ⟨P, S, h.program, hvisited, h.covers.length, h.covers.last, fun d hd => ?_⟩
  have hdistance := (h.distance hbelow hrecorded).symm.trans hd
  obtain ⟨i, c, v, hi, hv, -, -⟩ := h.value hdistance hready
  refine ⟨(List.findIdx?_eq_some_iff_getElem.1 hdistance).1, i, hi, ?_⟩
  show ((p.watched.world.heap.frame i).get? name.lexeme).isSome = true
  rw [hv]
  rfl

theorem Sees.good_assign (h : Sees natives p n P S chain names) {name : Token} {use : UseId}
    {e : Expr UseId} (hvisited : P.Visits path S (.expression (.assign name e use)))
    (hbelow : use < P.nextUse) (hrecorded : P.found.distances[use]? = S.distance? name.lexeme) :
    Visit.Good p.watched.programs
      ⟨⟨n, path⟩, .expression (.assign name e use), chain, p.watched.world⟩ := by
  refine ⟨P, S, h.program, hvisited, h.covers.length, h.covers.last, fun d hd => ?_⟩
  have hdistance := (h.distance hbelow hrecorded).symm.trans hd
  exact (List.findIdx?_eq_some_iff_getElem.1 hdistance).1

/-- The distance of a use is looked up by the watched run alone. -/
theorem meets_distance {α β : Type} {R : Pair → α → β → Prop} {f : Option Nat → Watch α}
    {y : Lexical.ByName β} (hsees : Sees natives p n P S chain names) {x : String} {use : UseId}
    {d? : Option Nat} (hbelow : use < P.nextUse)
    (hrecorded : P.found.distances[use]? = S.distance? x) (hd : S.distance? x = d?)
    (hnext : Meets natives mayFail 0 p (f d?) y R) :
    Meets natives mayFail 0 p (do f (← Watch.lift (Eval.distance? use))) y R := by
  refine Meets.left (a := d?) (q := p) ?_ rfl hnext fun _ => id
  rw [← hd, ← hsees.distance hbelow hrecorded]
  rfl

theorem meets_variable (hsees : Sees natives p n P S chain names) {name : Token} {use : UseId}
    {u : Unit} (hbelow : use < P.nextUse)
    (hrecorded : P.found.distances[use]? = S.distance? name.lexeme)
    (hready : S.unfinished name.lexeme = false) :
    Meets natives mayFail 0 p
      (do
        match ← Watch.lift (Eval.distance? use) with
        | some d =>
          Runs.room depth Eval.Levels.localName
          Watch.lift (Eval.readAt chain d name.lexeme)
        | none =>
          Runs.room depth Eval.Levels.globalName
          Watch.lift (Eval.readGlobal name))
      (Lexical.expression .plain patience (depth + 1) names (.variable name u))
      (SameValue natives) := by
  cases hd : S.distance? name.lexeme with
  | some d =>
    obtain ⟨i, c, v, hi, hv, hlookup, hcell⟩ := hsees.value hd hready
    rw [Lexical.read_local hlookup]
    refine meets_distance hsees hbelow hrecorded hd ?_
    refine (meets_room hsees.agree _ _).bind fun q _ _ _ _ heq => ?_
    subst heq
    exact meets_readLocal hsees.agree hi hv hcell
  | none =>
    rw [Lexical.read_global (hsees.covers.nonlocal hd)]
    refine meets_distance hsees hbelow hrecorded hd ?_
    exact (meets_room hsees.agree _ _).bind fun q _ _ hq _ _ => meets_readGlobal hq name

theorem meets_assign (h : Simulates natives mayFail patience depth)
    (hsees : Sees natives p n P S chain names) {name : Token} {use : UseId} {u : Unit}
    {e : Expr UseId} (hbelow : use < P.nextUse)
    (hrecorded : P.found.distances[use]? = S.distance? name.lexeme)
    (hvalue : ScopedExpr P S (0 :: path) e) :
    Meets natives mayFail 0 p
      (do
        let v ← Watch.expression patience depth ⟨n, 0 :: path⟩ chain e
        match ← Watch.lift (Eval.distance? use) with
        | some d =>
          Runs.room depth Eval.Levels.localName
          Watch.lift (Eval.assignAt chain d name.lexeme v)
        | none =>
          Runs.room depth Eval.Levels.globalName
          Watch.lift (Eval.assignGlobal name v)
        return v)
      (Lexical.expression .plain patience (depth + 1) names (.assign name e.erase u))
      (SameValue natives) := by
  have hresult : ∀ {q q' : Pair} {v : Value}, Genuine natives q.watched.world.code v →
      Agree natives none q' → Grows 0 q.core q'.core →
      Meets natives mayFail 0 q' (pure v) (pure v) (SameValue natives) :=
    fun hv hq' hgrows => meets_pure hq' ⟨rfl, hv.grow hgrows⟩
  cases hd : S.distance? name.lexeme with
  | some d =>
    obtain ⟨-, i, c, -, hi, -, -, -, hlink, hlookup, -⟩ := hsees.covers.local hd
    rw [Lexical.assign_local hlookup]
    refine (h.expression hsees hvalue).bind fun q v v' hq hgrows hv => ?_
    obtain ⟨rfl, hv⟩ := hv
    refine meets_distance (hsees.grow hq hgrows) hbelow hrecorded hd ?_
    refine (meets_room hq _ _).bind fun q₁ _ _ _ _ heq => ?_
    subst heq
    refine (meets_assignLocal hq hi (hgrows.links _ _ _ hlink) hv).bind
      fun q₂ _ _ hq₂ hgrows₂ _ => hresult hv hq₂ hgrows₂
  | none =>
    rw [Lexical.assign_global (hsees.covers.nonlocal hd)]
    refine (h.expression hsees hvalue).bind fun q v v' hq hgrows hv => ?_
    obtain ⟨rfl, hv⟩ := hv
    refine meets_distance (hsees.grow hq hgrows) hbelow hrecorded hd ?_
    refine (meets_room hq _ _).bind fun q₁ _ _ _ _ heq => ?_
    subst heq
    exact (meets_assignGlobal hq name hv).bind
      fun q₂ _ _ hq₂ hgrows₂ _ => hresult hv hq₂ hgrows₂

theorem meets_expression (h : Simulates natives mayFail patience depth)
    (hsees : Sees natives p n P S chain names) {e : Expr UseId} (he : ScopedExpr P S path e) :
    Meets natives mayFail 0 p (Watch.expression patience (depth + 1) ⟨n, path⟩ chain e)
      (Lexical.expression .plain patience (depth + 1) names e.erase) (SameValue natives) := by
  have hgood : ∀ {e : Expr UseId}, P.Visits path S (.expression e) → (∀ x l, e ≠ .variable x l) →
      (∀ x e' l, e ≠ .assign x e' l) →
      Visit.Good p.watched.programs ⟨⟨n, path⟩, .expression e, chain, p.watched.world⟩ := by
    intro e hvisited hvariable hassign
    refine ⟨P, S, hsees.program, hvisited, hsees.covers.length, hsees.covers.last, ?_⟩
    cases e with
    | «variable» x l => exact absurd rfl (hvariable x l)
    | assign x e' l => exact absurd rfl (hassign x e' l)
    | _ => trivial
  cases he with
  | literal visited plain =>
    refine meets_note hsees.agree (hgood visited (by simp) (by simp)) fun q hq _ => ?_
    exact meets_pure hq ⟨rfl, .plain plain⟩
  | grouping visited inner =>
    refine meets_note hsees.agree (hgood visited (by simp) (by simp)) fun q hq hgrows => ?_
    exact h.expression (hsees.grow hq hgrows) inner
  | unary visited hoperator right =>
    refine meets_note hsees.agree (hgood visited (by simp) (by simp)) fun q hq hgrows => ?_
    refine (h.expression (hsees.grow hq hgrows) right).bind fun q₁ v v' hq₁ _ hv => ?_
    obtain ⟨rfl, -⟩ := hv
    exact meets_operator hq₁ (fairResult_unary hoperator v')
  | binary visited hoperator left right =>
    refine meets_note hsees.agree (hgood visited (by simp) (by simp)) fun q hq hgrows => ?_
    have hsees := hsees.grow hq hgrows
    refine (h.expression hsees left).bind fun q₁ a a' hq₁ hgrows₁ ha => ?_
    refine (h.expression (hsees.grow hq₁ hgrows₁) right).bind fun q₂ b b' hq₂ _ hb => ?_
    obtain ⟨rfl, -⟩ := ha
    obtain ⟨rfl, -⟩ := hb
    exact meets_operator hq₂ (fairResult_binary hoperator a' b')
  | logical visited left right =>
    refine meets_note hsees.agree (hgood visited (by simp) (by simp)) fun q hq hgrows => ?_
    have hsees := hsees.grow hq hgrows
    refine (h.expression hsees left).bind fun q₁ a a' hq₁ hgrows₁ ha => ?_
    obtain ⟨rfl, ha⟩ := ha
    split
    · exact meets_pure hq₁ ⟨rfl, ha⟩
    · exact h.expression (hsees.grow hq₁ hgrows₁) right
  | «variable» visited below recorded ready =>
    refine meets_note hsees.agree (hsees.good_variable visited below recorded ready)
      fun q hq hgrows => ?_
    exact meets_variable (hsees.grow hq hgrows) below recorded ready
  | assign visited below recorded value =>
    refine meets_note hsees.agree (hsees.good_assign visited below recorded) fun q hq hgrows => ?_
    exact meets_assign h (hsees.grow hq hgrows) below recorded value
  | call visited callee arguments =>
    refine meets_note hsees.agree (hgood visited (by simp) (by simp)) fun q hq hgrows => ?_
    have hsees := hsees.grow hq hgrows
    refine (h.expression hsees callee).bind fun q₁ f f' hq₁ hgrows₁ hf => ?_
    obtain ⟨rfl, hf⟩ := hf
    refine (h.values (hsees.grow hq₁ hgrows₁) arguments).bind fun q₂ vs vs' hq₂ hgrows₂ hvs => ?_
    obtain ⟨rfl, hvs⟩ := hvs
    exact h.apply hq₂ (hf.grow hgrows₂) hvs

theorem meets_inOrder (h : Simulates natives mayFail patience depth)
    (hsees : Sees natives p n P S chain names) {es : List (Expr UseId)} {i : Nat}
    (hes : ∀ j e, es[j]? = some e → ScopedExpr P S ((i + j + 1) :: path) e) :
    Meets natives mayFail 0 p
      (Watch.inOrder
        (fun i e => Watch.expression patience depth ⟨n, (i + 1) :: path⟩ chain e) i es)
      ((Expr.eraseAll es).mapM (Lexical.expression .plain patience depth names))
      (SameValues natives) := by
  induction es generalizing p i with
  | nil => exact meets_pure hsees.agree ⟨rfl, by simp⟩
  | cons e es ih =>
    rw [Expr.eraseAll, List.mapM_cons]
    refine (h.expression hsees (hes 0 e rfl)).bind fun q v v' hq hgrows hv => ?_
    obtain ⟨rfl, hv⟩ := hv
    have hrest : ∀ j e, es[j]? = some e → ScopedExpr P S ((i + 1 + j + 1) :: path) e := by
      intro j e' hj
      have hitem := hes (j + 1) e' hj
      rwa [show i + (j + 1) + 1 = i + 1 + j + 1 by omega] at hitem
    refine (ih (hsees.grow hq hgrows) hrest).bind fun q₁ vs vs' hq₁ hgrows₁ hvs => ?_
    obtain ⟨rfl, hvs⟩ := hvs
    refine meets_pure hq₁ ⟨rfl, fun u hu => ?_⟩
    obtain rfl | hu := List.mem_cons.1 hu
    · exact hv.grow hgrows₁
    · exact hvs u hu

end Expressions

/-! ## Statements -/

section Statements

variable {patience depth : Nat} {p q : Pair} {n : Nat} {P : Accepted} {b : Bool} {S : Scopes}
  {path : Trail} {chain : Chain} {site : Site} {i₀ : FrameId}

theorem Stands.sees (h : Stands natives p n P S chain site) :
    Sees natives p n P S chain site.names :=
  ⟨h.agree, h.program, h.standing.covers,
    fun scope hscope => h.standing.settled scope (List.mem_of_mem_tail hscope)⟩

/-- The place is the same after a step that leaves no new name in its innermost frame. -/
theorem Stands.stay (h : Stands natives p n P S chain site) (hq : Agree natives none q)
    (hgrows : Grows i₀ p.core q.core) (hfresh : Fresh q.link S chain) :
    Stands natives q n P S chain site :=
  ⟨hq, hgrows.programs _ _ h.program, h.standing.covers.grow hgrows, h.standing.settled, hfresh,
    h.standing.inside⟩

theorem Stands.grow (h : Stands natives p n P S chain site) (hq : Agree natives none q)
    (hgrows : Grows 0 p.core q.core) : Stands natives q n P S chain site :=
  h.stay hq hgrows (h.standing.fresh.keep h.standing.covers hgrows)

theorem Stands.expression (h : Simulates natives mayFail patience depth)
    (hstands : Stands natives p n P S chain site) {e : Expr UseId} (he : ScopedExpr P S path e)
    (i₀ : FrameId) :
    Meets natives mayFail i₀ p (Watch.expression patience depth ⟨n, path⟩ chain e)
      (Lexical.expression .plain patience depth site.names e.erase)
      fun q v v' => SameValue natives q v v' ∧ Stands natives q n P S chain site := by
  refine Meets.widen hstands.agree ?_ i₀
  refine (h.expression hstands.sees he).mono fun q v v' hq hgrows hv => ?_
  exact ⟨hv, hstands.grow hq hgrows⟩

theorem Stands.behind (h : Stands natives q n P S chain site) :
    Behind natives b S chain q none (none, site) where
  same := rfl
  genuine _ hv := by cases hv
  inFunction _ := rfl
  standing _ := h.standing

/-- A statement outside all blocks. -/
theorem Stands.outside (h : Stands natives p n P [] chain site) :
    chain = globalChain ∧ site = .global := by
  refine ⟨?_, h.standing.inside.2 rfl⟩
  have hcovers := h.standing.covers
  generalize site.names = names at hcovers
  cases hcovers with
  | global => rfl

/-- A statement in a block or in a function. -/
theorem Stands.inBlock {scope : Scope} (h : Stands natives p n P (scope :: S) chain site) :
    ∃ i outer names, chain = i :: outer ∧ site = .inside names ∧ 0 < i ∧
      i < p.watched.world.heap.next := by
  have hsite : ∃ names, site = .inside names := by
    cases hs : site with
    | global => exact absurd (h.standing.inside.1 hs) (by simp)
    | inside names => exact ⟨names, rfl⟩
  obtain ⟨names, rfl⟩ := hsite
  have hcovers := h.standing.covers
  generalize (Site.inside names).names = names' at hcovers
  cases hcovers with
  | scope _ inside known => exact ⟨_, _, names, rfl, rfl, inside, known⟩

/-- A name that is not declared yet has no link. -/
theorem Stands.new {scope : Scope} {i : FrameId} {outer : Chain} {x : String}
    (h : Stands natives p n P (scope :: S) (i :: outer) site)
    (hnew : Scopes.declared (scope :: S) x = false) : p.link i x = none := by
  cases hlink : p.link i x with
  | none => rfl
  | some c =>
    have hbinds : scope.binds x = true := h.standing.fresh x c hlink
    exact absurd (hbinds.symm.trans hnew) (by simp)

/-- A place behind a declaration: the name has a cell, and is bound now. -/
theorem Standing.declared {h h' : Heap} {link link' : Links} {scope : Scope} {i : FrameId}
    {outer : Chain} {x : String} {c : CellId} {names : Names}
    (hstanding : Standing h link (scope :: S) (i :: outer) (.inside names))
    (hcovers : Covers h' link' (scope.put x false :: S) (i :: outer) ((x, c) :: names))
    (hlink : link' i = link.add i x c i) (hbound : (h'.frame i).binds x = true) :
    Standing h' link' (scope.put x true :: S) (i :: outer) (.inside ((x, c) :: names)) where
  covers := hcovers.finish hbound
  settled := hstanding.settled.put x
  fresh := by
    intro y l hl
    rw [hlink] at hl
    exact fresh_add (x := x) hstanding.fresh c true y l hl
  inside := by simp

/-- A variable is declared outside all blocks. -/
theorem meets_varGlobal (hstands : Stands natives p n P [] chain site) {x : String}
    {w : Watch Value} {value : Names → Lexical.ByName Value}
    (hvalue : Meets natives mayFail 0 p w (value []) (SameValue natives)) :
    Meets natives mayFail 0 p
      (do
        let v ← w
        Watch.lift (Eval.define chain x v)
        return none)
      (do
        let site ← Lexical.declare site x value
        return (none, site))
      (Behind natives b [] chain) := by
  obtain ⟨rfl, rfl⟩ := hstands.outside
  rw [Lexical.declare, bind_assoc]
  refine hvalue.bind fun q v v' hq hgrows hv => ?_
  obtain ⟨rfl, hv⟩ := hv
  obtain ⟨hq₁, hgrows₁⟩ := hq.writeGlobal x hv
  refine meets_step rfl rfl hq₁ hgrows₁ ?_
  exact ((hstands.grow hq hgrows).grow hq₁ hgrows₁).behind

/-- A variable is declared in a block. Its cell is there before its value is. -/
theorem meets_varLocal {scope : Scope} {i : FrameId} {outer : Chain} {names : Names}
    (hstands : Stands natives p n P (scope :: S) (i :: outer) (.inside names)) {x : String}
    (hnew : Scopes.declared (scope :: S) x = false) {w : Watch Value}
    {value : Names → Lexical.ByName Value}
    (hvalue : ∀ q names', Sees natives q n P (scope.put x false :: S) (i :: outer) names' →
      Meets natives mayFail 0 q w (value names') (SameValue natives)) :
    Meets natives mayFail i p
      (do
        let v ← w
        Watch.lift (Eval.define (i :: outer) x v)
        return none)
      (do
        let site ← Lexical.declare (.inside names) x value
        return (none, site))
      (Behind natives b (scope.put x true :: S) (i :: outer)) := by
  obtain ⟨j, outer', names', hchain, hsite, hinside, hknown⟩ := hstands.inBlock
  cases hchain
  cases hsite
  have hlink := hstands.new hnew
  obtain ⟨hq, hgrows⟩ := hstands.agree.newCell hinside hknown hlink
  have hcovers := hstands.standing.covers.declare hlink p.lexical.cells.size
  have hsees : Sees natives _ n P (scope.put x false :: S) (i :: outer) _ :=
    ⟨hq, hstands.program, hcovers,
      fun scope' hscope => hstands.standing.settled scope' (List.mem_cons_of_mem _ hscope)⟩
  rw [Lexical.declare, bind_assoc]
  refine Meets.right (q := p.store p.watched.world.heap p.lexical.globals
    (p.lexical.cells.push .nil) (p.link.add i x p.lexical.cells.size)) rfl rfl ?_
    fun c hc => hgrows.trans hc
  dsimp only
  rw [bind_assoc]
  refine ((hvalue _ _ hsees).mono fun q₁ v v' _ hgrows₁ hv => And.intro hv hgrows₁).widen hq i
    |>.bind fun q₁ v v' hq₁ _ hv => ?_
  obtain ⟨⟨rfl, hv⟩, hgrows₁⟩ := hv
  have hcell : q₁.link i x = some p.lexical.cells.size := hgrows₁.links _ _ _ (Links.add_self ..)
  obtain ⟨hq₂, hgrows₂⟩ := hq₁.write hcell hv
  have hbound : ((q₁.watched.world.heap.put i x v').frame i).binds x = true := by
    rw [Heap.frame_put_self (hq₁.linked.range i x _ hcell).2.1, Bindings.binds_put,
      decide_eq_true rfl, Bool.true_or]
  refine meets_step rfl rfl hq₂ (hgrows₂.weaken (fun _ => rfl) i)
    ⟨rfl, fun _ hnone => (by cases hnone), fun _ => rfl, fun _ => ?_⟩
  have hkept : q₁.link i = p.link.add i x p.lexical.cells.size i :=
    hgrows₁.keeps i hknown (Nat.ne_of_gt hinside)
  exact hstands.standing.declared ((hcovers.grow hgrows₁).grow hgrows₂) hkept hbound

theorem meets_var (hstands : Stands natives p n P S chain site) {x : String}
    (hnew : S.declared x = false) {w : Watch Value} {value : Names → Lexical.ByName Value}
    (hvalue : ∀ q names, Sees natives q n P (S.note x false) chain names →
      Meets natives mayFail 0 q w (value names) (SameValue natives)) :
    Meets natives mayFail (chain.headD 0) p
      (do
        let v ← w
        Watch.lift (Eval.define chain x v)
        return none)
      (do
        let site ← Lexical.declare site x value
        return (none, site))
      (Behind natives b (S.note x true) chain) := by
  cases S with
  | nil =>
    obtain ⟨rfl, rfl⟩ := hstands.outside
    exact meets_varGlobal hstands (hvalue p [] hstands.sees)
  | cons scope S =>
    obtain ⟨i, outer, names, rfl, rfl, -, -⟩ := hstands.inBlock
    exact meets_varLocal hstands hnew hvalue

/-- A function that was made corresponds to its body by names, once its chain and its names belong
together. -/
theorem corresponds_declare (hp : Agree natives none p) (hP : p.watched.programs[n]? = some P)
    {ps : List Token} {ss : List (Stmt UseId)} {names : Names} {heap : Heap} {globals : Frame}
    {cells : Array Value} {link : Links} (hdistinct : (ps.map Token.lexeme).Nodup)
    (hbody : ScopedBody P true (Scopes.parameterScope ps :: S) path 0 ss)
    (hcovers : Covers heap link S chain names) (hsettled : Settled S) :
    Corresponds natives
      ((p.declare ⟨n, path⟩ ps ss chain names).store heap globals cells link).core
      p.watched.world.code.size := by
  have hsize : p.watched.world.code.size = p.lexical.code.size := hp.code.size
  have horigin :
      ((p.declare ⟨n, path⟩ ps ss chain names).store heap globals cells link).core.origins
        p.watched.world.code.size = ⟨n, path⟩ := if_pos rfl
  refine .function (P := P) Array.getElem?_push_size ?_ ?_ ?_ hdistinct hcovers hsettled
  · show (p.lexical.code.push _)[p.watched.world.code.size]? = _
    rw [hsize]
    exact Array.getElem?_push_size
  · rw [horigin]
    exact hP
  · rw [horigin]
    exact hbody

/-- A function is declared outside all blocks. -/
theorem meets_functionGlobal (hstands : Stands natives p n P [] chain site) {name : Token}
    {ps : List Token} {ss : List (Stmt UseId)} (hdistinct : (ps.map Token.lexeme).Nodup)
    (hbody : ScopedBody P true [Scopes.parameterScope ps] path 0 ss) :
    Meets natives mayFail 0 p
      (do
        Watch.declareAt ⟨n, path⟩
        let f ← Watch.lift (modifyGet (·.addFunction name.lexeme ps ss chain))
        Watch.lift (Eval.define chain name.lexeme f)
        return none)
      (do
        let site ← Lexical.declare site name.lexeme fun names =>
          Lexical.newFunction name.lexeme ps (Stmt.eraseAll ss) names
        return (none, site))
      (Behind natives b [] chain) := by
  obtain ⟨rfl, rfl⟩ := hstands.outside
  have hsize : p.watched.world.code.size = p.lexical.code.size := hstands.agree.code.size
  obtain ⟨hq₁, hgrows₁⟩ := hstands.agree.newFunction ⟨n, path⟩ ps ss globalChain []
  have hf : Genuine natives (p.declare ⟨n, path⟩ ps ss globalChain []).watched.world.code
      (.function ⟨p.watched.world.code.size, name.lexeme, ps.length⟩) :=
    .function Array.getElem?_push_size rfl
  obtain ⟨hq₂, hgrows₂⟩ := hq₁.writeGlobal name.lexeme hf
  have hclosed := hq₂.close (corresponds_declare hstands.agree hstands.program hdistinct hbody
    .global fun scope hscope => by cases hscope)
  have hgrows := hgrows₁.trans hgrows₂
  refine meets_step rfl ?_ hclosed hgrows (hstands.grow hclosed hgrows).behind
  rw [hsize]
  rfl

/-- A function is declared in a block. It sees its own name, and so it is in order only when that
name is bound. -/
theorem meets_functionLocal {scope : Scope} {i : FrameId} {outer : Chain} {names : Names}
    (hstands : Stands natives p n P (scope :: S) (i :: outer) (.inside names)) {name : Token}
    {ps : List Token} {ss : List (Stmt UseId)}
    (hnew : Scopes.declared (scope :: S) name.lexeme = false)
    (hdistinct : (ps.map Token.lexeme).Nodup)
    (hbody : ScopedBody P true
      (Scopes.parameterScope ps :: scope.put name.lexeme true :: S) path 0 ss) :
    Meets natives mayFail i p
      (do
        Watch.declareAt ⟨n, path⟩
        let f ← Watch.lift (modifyGet (·.addFunction name.lexeme ps ss (i :: outer)))
        Watch.lift (Eval.define (i :: outer) name.lexeme f)
        return none)
      (do
        let site ← Lexical.declare (.inside names) name.lexeme fun names =>
          Lexical.newFunction name.lexeme ps (Stmt.eraseAll ss) names
        return (none, site))
      (Behind natives b (scope.put name.lexeme true :: S) (i :: outer)) := by
  obtain ⟨j, outer', names', hchain, hsite, hinside, hknown⟩ := hstands.inBlock
  cases hchain
  cases hsite
  have hlink := hstands.new hnew
  have hsize : p.watched.world.code.size = p.lexical.code.size := hstands.agree.code.size
  -- the cell, the function, and the value of the name
  obtain ⟨hq₁, hgrows₁⟩ := hstands.agree.newCell hinside hknown hlink
  have hcovers := hstands.standing.covers.declare hlink p.lexical.cells.size
  obtain ⟨hq₂, hgrows₂⟩ := hq₁.newFunction ⟨n, path⟩ ps ss (i :: outer)
    ((name.lexeme, p.lexical.cells.size) :: names)
  have hf : Genuine natives
      (p.watched.world.code.push (.closure ps ss (i :: outer)))
      (.function ⟨p.watched.world.code.size, name.lexeme, ps.length⟩) :=
    .function Array.getElem?_push_size rfl
  obtain ⟨hq₃, hgrows₃⟩ := hq₂.write (Links.add_self ..) hf
  have hstanding := hstands.standing.declared ((hcovers.grow hgrows₂).grow hgrows₃) rfl (by
    show ((p.watched.world.heap.put i name.lexeme _).frame i).binds name.lexeme = true
    rw [Heap.frame_put_self hknown, Bindings.binds_put, decide_eq_true rfl, Bool.true_or])
  have hclosed := hq₃.close (corresponds_declare hq₁ hstands.program hdistinct hbody
    hstanding.covers hstanding.settled)
  have hgrows := hgrows₁.trans ((hgrows₂.trans hgrows₃).weaken (fun _ => rfl) i)
  refine meets_step (b := (none, .inside ((name.lexeme, p.lexical.cells.size) :: names))) rfl ?_
    hclosed hgrows ⟨rfl, fun _ hnone => (by cases hnone), fun _ => rfl, fun _ => hstanding⟩
  rw [hsize]
  rfl

theorem meets_print (hp : Agree natives none p) (line : String) :
    Meets natives mayFail i₀ p (Watch.lift (Eval.print line)) (Lexical.print line)
      fun q _ _ => Grows 0 p.core q.core := by
  have hq := hp.onSurface
    (w := { p.watched.world with printed := p.watched.world.printed.push line })
    (s := { p.lexical with printed := p.lexical.printed.push line })
    { hp.surface with printed := congrArg (·.push line) hp.surface.printed }
    rfl rfl rfl rfl rfl rfl
  exact meets_step rfl rfl hq (grows_refl _ _) (grows_refl _ _)

theorem meets_block (h : Simulates natives mayFail patience depth)
    (hstands : Stands natives p n P S chain site) {ss : List (Stmt UseId)}
    (hbody : ScopedBody P b (.empty :: S) path 0 ss) :
    Meets natives mayFail 0 p
      (do
        let inner ← Watch.lift (Eval.openFrame chain)
        Watch.statements patience depth ⟨n, path⟩ inner ss)
      (Lexical.statements .plain patience depth (.inside site.names) (Stmt.eraseAll ss))
      (Through natives b) := by
  obtain ⟨hq, hgrows⟩ := hstands.agree.newFrame
  have hstands' := hstands.grow hq hgrows
  have hnone : ∀ x c, p.link p.watched.world.heap.next x ≠ some c := fun x c hc =>
    Nat.lt_irrefl _ (hstands.agree.linked.range _ x c hc).2.1
  have hblock := hstands'.standing.covers.block (n := p.watched.world.heap.next)
    hstands'.standing.settled hnone
    hstands.agree.linked.nonempty (by simp [Pair.store])
  have hinner := h.statements ⟨hq, hstands'.program, hblock⟩ hbody
  exact Meets.left (q := p.store _ _ _ _) rfl rfl hinner fun c hc =>
    hgrows.inner hc (Nat.le_refl _)

theorem meets_sequence (h : Simulates natives mayFail patience depth) {i : Nat}
    {ss : List (Stmt UseId)} (hstands : Stands natives p n P S chain site)
    (hbody : ScopedBody P b S path i ss) :
    Meets natives mayFail (chain.headD 0) p
      (Watch.sequence (fun i s => Watch.statement patience depth ⟨n, i :: path⟩ chain s) i ss)
      (Lexical.sequence (Lexical.statement .plain patience depth) site (Stmt.eraseAll ss))
      (Through natives b) := by
  induction ss generalizing p S i site with
  | nil => exact meets_pure hstands.agree ⟨rfl, fun _ hnone => (by cases hnone), fun _ => rfl⟩
  | cons s ss ih =>
    cases hbody with
    | cons first rest =>
      refine (h.statement hstands first).bind fun q r r' hq hgrows hr => ?_
      obtain ⟨r', site'⟩ := r'
      obtain rfl : r' = r := hr.same
      cases r' with
      | some v => exact meets_pure hq ⟨rfl, hr.genuine, hr.inFunction⟩
      | none => exact ih ⟨hq, hgrows.programs _ _ hstands.program, hr.standing rfl⟩ rest

/-- A statement that declares nothing, executed where it is not the last. -/
theorem Stands.branch (h : Simulates natives mayFail patience depth)
    (hstands : Stands natives p n P S chain site) {s : Stmt UseId} (hs : ScopedStmt P b S path s)
    (hdeclares : s.declares = false) :
    Meets natives mayFail (chain.headD 0) p (Watch.statement patience depth ⟨n, path⟩ chain s)
      (Lexical.statement .plain patience depth site s.erase)
      fun q r r' => Behind natives b S chain q r (r'.1, site) := by
  refine (h.statement hstands hs).mono fun q r r' hq hgrows hr => ?_
  refine ⟨hr.same, hr.genuine, hr.inFunction, fun hnone => ?_⟩
  have hstanding := hr.standing hnone
  rw [Scopes.after_of_not_declares hdeclares] at hstanding
  exact (hstands.stay hq hgrows hstanding.fresh).standing

theorem meets_statement (h : Simulates natives mayFail patience depth)
    (hstands : Stands natives p n P S chain site) {s : Stmt UseId} (hs : ScopedStmt P b S path s) :
    Meets natives mayFail (chain.headD 0) p
      (Watch.statement patience (depth + 1) ⟨n, path⟩ chain s)
      (Lexical.statement .plain patience (depth + 1) site s.erase)
      (Behind natives b (S.after s) chain) := by
  have hgood : ∀ {s : Stmt UseId}, P.Visits path S (.statement s) →
      Visit.Good p.watched.programs ⟨⟨n, path⟩, .statement s, chain, p.watched.world⟩ :=
    fun hvisited => ⟨P, S, hstands.program, hvisited, hstands.standing.covers.length,
      hstands.standing.covers.last, trivial⟩
  have hreturn : ∀ {q : Pair} {v : Value}, Genuine natives q.watched.world.code v →
      Behind natives true S chain q (some v) (some v, site) :=
    fun hv => ⟨rfl, fun _ heq => (by cases heq; exact hv), fun hb => (by cases hb),
      fun hnone => (by cases hnone)⟩
  cases hs with
  | expression visited value =>
    refine meets_note hstands.agree (hgood visited) fun q hq hgrows => ?_
    refine ((hstands.grow hq hgrows).expression h value _).bind fun q₁ v v' hq₁ _ hv => ?_
    exact meets_pure hq₁ hv.2.behind
  | print visited value =>
    refine meets_note hstands.agree (hgood visited) fun q hq hgrows => ?_
    refine ((hstands.grow hq hgrows).expression h value _).bind fun q₁ v v' hq₁ _ hv => ?_
    obtain ⟨⟨rfl, -⟩, hstands₁⟩ := hv
    refine (meets_print hq₁ _).bind fun q₂ _ _ hq₂ _ hgrows₂ => ?_
    exact meets_pure hq₂ (hstands₁.grow hq₂ hgrows₂).behind
  | @var _ _ _ name e visited new value =>
    refine meets_note hstands.agree (hgood visited) fun q hq hgrows => ?_
    have hstands := hstands.grow hq hgrows
    cases e with
    | none => exact meets_var hstands new fun _ _ hsees => meets_pure hsees.agree ⟨rfl, .plain rfl⟩
    | some e => exact meets_var hstands new fun _ _ hsees => h.expression hsees (value e rfl)
  | block visited body =>
    refine meets_note hstands.agree (hgood visited) fun q hq hgrows => ?_
    have hstands := hstands.grow hq hgrows
    refine Meets.widen hq (Meets.returns ?_) _
    refine (meets_block h hstands body).mono fun q₁ r r' hq₁ hgrows₁ hr => ?_
    exact ⟨hr.same, hr.genuine, hr.inFunction, fun _ => (hstands.grow hq₁ hgrows₁).standing⟩
  | @branch _ _ _ e s o visited condition yes hyes no hno =>
    refine meets_note hstands.agree (hgood visited) fun q hq hgrows => ?_
    refine ((hstands.grow hq hgrows).expression h condition _).bind fun q₁ v v' hq₁ _ hv => ?_
    obtain ⟨⟨rfl, -⟩, hstands₁⟩ := hv
    show Meets natives mayFail _ q₁ (if v'.isTruthy then _ else _) (if v'.isTruthy then _ else _) _
    cases v'.isTruthy with
    | true =>
      exact Meets.returns (g := fun r : Option Value × Site => (r.1, site))
        (hstands₁.branch h yes hyes)
    | false =>
      cases o with
      | none => exact meets_pure hq₁ hstands₁.behind
      | some s' =>
        exact Meets.returns (g := fun r : Option Value × Site => (r.1, site))
          (hstands₁.branch h (no s' rfl) (hno s' rfl))
  | @loop _ _ _ e s visited condition body hbody =>
    refine meets_note hstands.agree (hgood visited) fun q hq hgrows => ?_
    refine Meets.returns ?_
    refine meets_repeatWhile (I := fun q => Stands natives q n P S chain site) (fun q hq hI => ?_)
      (fun q hq hI => ?_) (fun q hI => hI.behind) patience hq (hstands.grow hq hgrows)
    · refine (hI.expression h condition _).bind fun q₁ v v' hq₁ _ hv => ?_
      obtain ⟨⟨rfl, -⟩, hstands₁⟩ := hv
      exact meets_pure hq₁ ⟨rfl, hstands₁⟩
    · refine Meets.returns ?_
      refine (hI.branch h body hbody).mono fun q₁ r r' hq₁ hgrows₁ hr => ?_
      refine ⟨hr.same, hr, fun hnone => ?_⟩
      exact ⟨hq₁, hgrows₁.programs _ _ hI.program, hr.standing hnone⟩
  | @function _ _ _ name ps ss visited new distinct body =>
    refine meets_note hstands.agree (hgood visited) fun q hq hgrows => ?_
    have hstands := hstands.grow hq hgrows
    cases S with
    | nil =>
      obtain ⟨rfl, rfl⟩ := hstands.outside
      exact meets_functionGlobal hstands distinct body
    | cons scope S =>
      obtain ⟨i, outer, names, rfl, rfl, -, -⟩ := hstands.inBlock
      exact meets_functionLocal hstands new distinct body
  | @giveBack _ _ _ e visited value =>
    refine meets_note hstands.agree (hgood visited) fun q hq hgrows => ?_
    cases e with
    | none => exact meets_pure hq (hreturn (.plain rfl))
    | some e =>
      refine ((hstands.grow hq hgrows).expression h (value e rfl) _).bind
        fun q₁ v v' hq₁ _ hv => ?_
      obtain ⟨⟨rfl, hv⟩, -⟩ := hv
      exact meets_pure hq₁ (hreturn hv)

end Statements

end Scriptling
