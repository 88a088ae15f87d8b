-- The whole of evaluation goes in step. Expressions, statements and calls of worlds alike do the
-- same, one level of depth after the other, and so do the sources that natives run: a source is
-- read the same in both worlds, and what is recorded for its uses is the same.
import Scriptling.Proofs.Grammar.Locality
import Scriptling.Proofs.Run.Alike
import Scriptling.Proofs.Run.Sources

namespace Scriptling

variable {T : Token → Token → Prop} {base base' : List Report} {w w' : World}
  {patience depth : Nat}

/-- All of evaluation at one depth, in two worlds alike. -/
structure GoesInStep (T : Token → Token → Prop) (base base' : List Report)
    (patience depth : Nat) : Prop where
  expression : ∀ {w w' : World} {chain : Chain} {e e' : Expr UseId}, Like T base base' w w' →
    LikeExpr T (SameUse w w') e e' → InStep T base base' w w'
      (Eval.expression patience depth chain e) (Eval.expression patience depth chain e')
  values : ∀ {w w' : World} {chain : Chain} {es es' : List (Expr UseId)}, Like T base base' w w' →
    List.Forall₂ (LikeExpr T (SameUse w w')) es es' → InStep T base base' w w'
      (Eval.values patience depth chain es) (Eval.values patience depth chain es')
  statement : ∀ {w w' : World} {chain : Chain} {s s' : Stmt UseId}, Like T base base' w w' →
    LikeStmt T (SameUse w w') s s' → InStep T base base' w w'
      (Eval.statement patience depth chain s) (Eval.statement patience depth chain s')
  statements : ∀ {w w' : World} {chain : Chain} {ss ss' : List (Stmt UseId)},
    Like T base base' w w' → List.Forall₂ (LikeStmt T (SameUse w w')) ss ss' →
    InStep T base base' w w'
      (Eval.statements patience depth chain ss) (Eval.statements patience depth chain ss')
  apply : ∀ {w w' : World} {f : Value} {vs : List Value} {t t' : Token}, Like T base base' w w' →
    T t t' → InStep T base base' w w'
      (Eval.apply patience depth f vs t) (Eval.apply patience depth f vs t')
  invoke : ∀ {w w' : World} {f : Value} {vs : List Value}, Like T base base' w w' →
    InStep T base base' w w' (Eval.invoke patience depth f vs) (Eval.invoke patience depth f vs)

/-! ## Expressions -/

theorem inStep_expression (hT : Lookalike T) (h : GoesInStep T base base' patience depth)
    {chain : Chain} {e e' : Expr UseId} (hw : Like T base base' w w')
    (he : LikeExpr T (SameUse w w') e e') : InStep T base base' w w'
      (Eval.expression patience (depth + 1) chain e)
      (Eval.expression patience (depth + 1) chain e') := by
  cases he with
  | literal => exact inStep_pure hw _
  | grouping inner => exact h.expression hw inner
  | unary operator right =>
    refine (h.expression hw right).bind fun v v' a hv _ _ => ?_
    exact (inStep_room hv _ _).bind fun v v' _ hv _ _ =>
      inStep_ofOperator hv (likeResult_unary hT operator a)
  | binary left operator right =>
    refine (h.expression hw left).bind fun v v' a hv later later' => ?_
    refine (h.expression hv (right.later later later')).bind fun v v' b hv _ _ => ?_
    exact (inStep_room hv _ _).bind fun v v' _ hv _ _ =>
      inStep_ofOperator hv (likeResult_binary hT operator a b)
  | logical left operator right =>
    refine (h.expression hw left).bind fun v v' a hv later later' => ?_
    rw [hT.kind operator]
    split
    · exact inStep_pure hv a
    · exact h.expression hv (right.later later later')
  | «variable» name label =>
    refine inStep_distance label fun d => ?_
    cases d with
    | some d =>
      refine (inStep_room hw _ _).bind fun v v' _ hv _ _ => ?_
      rw [hT.lexeme name]
      exact inStep_readAt hv chain d _
    | none =>
      exact (inStep_room hw _ _).bind fun v v' _ hv _ _ => inStep_readGlobal hT hv name
  | assign name value label =>
    refine (h.expression hw value).bind fun v v' a hv later later' => ?_
    refine inStep_distance (label.later later later') fun d => ?_
    cases d with
    | some d =>
      refine (inStep_room hv _ _).bind fun v v' _ hv _ _ => ?_
      rw [hT.lexeme name]
      exact (inStep_assignAt hv chain d _ a).bind fun v v' _ hv _ _ => inStep_pure hv a
    | none =>
      refine (inStep_room hv _ _).bind fun v v' _ hv _ _ => ?_
      exact (inStep_assignGlobal hT hv name a).bind fun v v' _ hv _ _ => inStep_pure hv a
  | call callee paren count arguments =>
    refine (h.expression hw callee).bind fun v v' f hv later later' => ?_
    have hes := (forall₂_of_getElem? count arguments).imp
      fun _ _ he => LikeExpr.later later later' he
    exact (h.values hv hes).bind fun v v' vs hv _ _ => h.apply hv paren
  | alien => exact inStep_throw hw .fault

theorem inStep_values {evaluate : Expr UseId → Eval Value}
    (h : ∀ {w w' : World} {e e' : Expr UseId}, Like T base base' w w' →
      LikeExpr T (SameUse w w') e e' → InStep T base base' w w' (evaluate e) (evaluate e'))
    (hw : Like T base base' w w') {es es' : List (Expr UseId)}
    (hes : List.Forall₂ (LikeExpr T (SameUse w w')) es es') :
    InStep T base base' w w' (es.mapM evaluate) (es'.mapM evaluate) := by
  induction es generalizing w w' es' with
  | nil =>
    cases hes
    exact inStep_pure hw []
  | cons e es ih =>
    cases hes with
    | cons he hes =>
      rw [List.mapM_cons, List.mapM_cons]
      refine (h hw he).bind fun v v' a hv later later' => ?_
      refine (ih hv (hes.imp fun _ _ he => LikeExpr.later later later' he)).bind
        fun v v' as hv _ _ => ?_
      exact inStep_pure hv (a :: as)

/-! ## Statements -/

theorem inStep_sequence {execute : Stmt UseId → Eval (Option Value)}
    (h : ∀ {w w' : World} {s s' : Stmt UseId}, Like T base base' w w' →
      LikeStmt T (SameUse w w') s s' → InStep T base base' w w' (execute s) (execute s'))
    (hw : Like T base base' w w') {ss ss' : List (Stmt UseId)}
    (hss : List.Forall₂ (LikeStmt T (SameUse w w')) ss ss') :
    InStep T base base' w w' (Eval.sequence execute ss) (Eval.sequence execute ss') := by
  induction ss generalizing w w' ss' with
  | nil =>
    cases hss
    exact inStep_pure hw none
  | cons s ss ih =>
    cases hss with
    | cons hs hss =>
      refine (h hw hs).bind fun v v' r hv later later' => ?_
      cases r with
      | some a => exact inStep_pure hv (some a)
      | none => exact ih hv (hss.imp fun _ _ hs => LikeStmt.later later later' hs)

theorem inStep_statement (hT : Lookalike T) (h : GoesInStep T base base' patience depth)
    {chain : Chain} {s s' : Stmt UseId} (hw : Like T base base' w w')
    (hs : LikeStmt T (SameUse w w') s s') : InStep T base base' w w'
      (Eval.statement patience (depth + 1) chain s)
      (Eval.statement patience (depth + 1) chain s') := by
  cases hs with
  | expression value =>
    exact (h.expression hw value).bind fun v v' _ hv _ _ => inStep_pure hv none
  | print value =>
    refine (h.expression hw value).bind fun v v' a hv _ _ => ?_
    exact (inStep_print hv _).bind fun v v' _ hv _ _ => inStep_pure hv none
  | plainVar name =>
    refine (inStep_pure hw Value.nil).bind fun v v' a hv _ _ => ?_
    rw [hT.lexeme name]
    exact (inStep_define hv chain _ a).bind fun v v' _ hv _ _ => inStep_pure hv none
  | var name value =>
    refine (h.expression hw value).bind fun v v' a hv _ _ => ?_
    rw [hT.lexeme name]
    exact (inStep_define hv chain _ a).bind fun v v' _ hv _ _ => inStep_pure hv none
  | block count body =>
    refine (inStep_openFrame hw chain).bind fun v v' inner hv later later' => ?_
    refine h.statements hv ((forall₂_of_getElem? count body).imp fun _ _ hs => ?_)
    exact hs.later later later'
  | branch condition yes =>
    refine (h.expression hw condition).bind fun v v' a hv later later' => ?_
    split
    · exact h.statement hv (yes.later later later')
    · exact inStep_pure hv none
  | branchElse condition yes no =>
    refine (h.expression hw condition).bind fun v v' a hv later later' => ?_
    split
    · exact h.statement hv (yes.later later later')
    · exact h.statement hv (no.later later later')
  | loop condition body =>
    refine inStep_repeatWhile (fun v v' hv later later' => ?_)
      (fun v v' hv later later' => h.statement hv (body.later later later')) patience hw
      (later_refl w) (later_refl w')
    refine (h.expression hv (condition.later later later')).bind fun v v' a hv _ _ => ?_
    exact inStep_pure hv a.isTruthy
  | function name parameters count body =>
    refine (inStep_addFunction hw (hT.lexeme name) parameters
      (forall₂_of_getElem? count body) chain).bind fun v v' f hv _ _ => ?_
    rw [hT.lexeme name]
    exact (inStep_define hv chain _ f).bind fun v v' _ hv _ _ => inStep_pure hv none
  | plainGiveBack keyword => exact inStep_pure hw (some Value.nil)
  | giveBack keyword value =>
    exact (h.expression hw value).bind fun v v' a hv _ _ => inStep_pure hv (some a)
  | alien => exact inStep_throw hw .fault

/-! ## Calls and programs -/

theorem inStep_apply (h : ∀ d < depth, GoesInStep T base base' patience d)
    (hw : Like T base base' w w') (f : Value) (vs : List Value) {t t' : Token} (ht : T t t') :
    InStep T base base' w w' (Eval.apply patience depth f vs t)
      (Eval.apply patience depth f vs t') := by
  obtain hlt | hle := Nat.lt_or_ge depth 7
  · rw [Eval.apply_of_lt hlt, Eval.apply_of_lt hlt]
    exact inStep_throw hw .overflow
  obtain ⟨depth, rfl⟩ := Nat.exists_eq_add_of_le' hle
  rw [Eval.apply, Eval.apply]
  cases f.callable? with
  | none => exact inStep_throw hw (.failed ht)
  | some c =>
    dsimp only
    split
    · exact inStep_throw hw (.failed ht)
    · exact ((h (depth + 6) (by omega)).invoke hw).inCall ht

/-- Statements outside all blocks, one after the other. -/
def Eval.inTurn (execute : Stmt UseId → Eval (Option Value)) (ss : List (Stmt UseId)) : Eval Unit :=
  ss.forM fun s => Runs.atTop s.firstLine (do let _ ← execute s)

theorem Eval.program_eq (execute : Stmt UseId → Eval (Option Value)) (ss : List (Stmt UseId)) :
    Eval.program execute ss = Runs.reporting Eval.reportRuntime (Eval.inTurn execute ss) := rfl

/-- Statements alike are executed in step. -/
def ExecutesInStep (T : Token → Token → Prop) (base base' : List Report)
    (execute : Stmt UseId → Eval (Option Value)) : Prop :=
  ∀ {w w' : World} {s s' : Stmt UseId}, Like T base base' w w' →
    LikeStmt T (SameUse w w') s s' → InStep T base base' w w' (execute s) (execute s')

theorem inStep_inTurn (hT : Lookalike T) {execute : Stmt UseId → Eval (Option Value)}
    (h : ExecutesInStep T base base' execute) (hw : Like T base base' w w')
    {ss ss' : List (Stmt UseId)} (hss : List.Forall₂ (LikeStmt T (SameUse w w')) ss ss') :
    InStep T base base' w w' (Eval.inTurn execute ss) (Eval.inTurn execute ss') := by
  induction ss generalizing w w' ss' with
  | nil =>
    cases hss
    exact inStep_pure hw ()
  | cons s ss ih =>
    cases hss with
    | cons hs hss =>
      have hfirst := ((h hw hs).bind fun v v' _ hv _ _ => inStep_pure hv ()).atTop (hs.firstLine hT)
      refine hfirst.bind fun v v' _ hv later later' => ?_
      exact ih hv (hss.imp fun _ _ hs => LikeStmt.later later later' hs)

/-- An error that is reported on the way out. -/
theorem InStep.reporting {x y : Eval Unit} (h : InStep T base base' w w' x y) :
    InStep T base base' w w' (Runs.reporting Eval.reportRuntime x)
      (Runs.reporting Eval.reportRuntime y) := by
  refine h.tryCatch fun v v' stop stop' hv hstop => ?_
  cases hstop with
  | failed token => exact inStep_reportRuntime hv token _
  | overflow => exact inStep_throw hv .overflow
  | fault => exact inStep_throw hv .fault
  | outOfPatience => exact inStep_throw hv .outOfPatience

theorem inStep_program (hT : Lookalike T) {execute : Stmt UseId → Eval (Option Value)}
    (h : ExecutesInStep T base base' execute) (hw : Like T base base' w w')
    {ss ss' : List (Stmt UseId)} (hss : List.Forall₂ (LikeStmt T (SameUse w w')) ss ss') :
    InStep T base base' w w' (Eval.program execute ss) (Eval.program execute ss') := by
  rw [Eval.program_eq, Eval.program_eq]
  exact (inStep_inTurn hT h hw hss).reporting

/-! ## Sources -/

/-- Labels given in turn, `k` of them on each side. -/
def InTurn (n n' k : Nat) (l l' : UseId) : Prop := ∃ j < k, l = n + j ∧ l' = n' + j

theorem oneToOne_inTurn (n n' k : Nat) : Resolve.OneToOne (InTurn n n' k) := by
  rintro _ _ _ _ ⟨i, -, rfl, rfl⟩ ⟨j, -, rfl, rfl⟩
  exact Nat.add_left_cancel_iff.trans Nat.add_left_cancel_iff.symm

/-- Raw trees alike get as many labels, and are alike up to them. -/
theorem labelAll_like {raw raw' : List RawStmt}
    (h : List.Forall₂ (LikeStmt T Parser.NoLabel) raw raw') (n n' : Nat) :
    ∃ k ss ss', (Stmt.labelAll raw).run n = (ss, n + k) ∧
      (Stmt.labelAll raw').run n' = (ss', n' + k) ∧
      List.Forall₂ (LikeStmt T (InTurn n n' k)) ss ss' := by
  obtain ⟨k, ss, ss', hss, hss', hlike⟩ := sideBySide_stmts (h.imp fun _ _ hs => hs.label) n n'
  exact ⟨k, ss, ss', hss, hss', hlike _ fun j hj => ⟨j, hj, rfl, rfl⟩⟩

/-- Statements that were labelled in turn are alike in worlds that record the same for them. -/
theorem sameUse_inTurn {n n' k : Nat} {ss ss' : List (Stmt UseId)}
    (h : List.Forall₂ (LikeStmt T (InTurn n n' k)) ss ss') (hn : n + k ≤ w.nextUse)
    (hn' : n' + k ≤ w'.nextUse)
    (hdistances : ∀ l l', InTurn n n' k l l' → w.distances[l]? = w'.distances[l']?) :
    List.Forall₂ (LikeStmt T (SameUse w w')) ss ss' := by
  refine h.imp fun s s' hs => hs.mono (fun _ _ _ ht => ht) ?_
  intro l l' hl
  refine ⟨?_, ?_, hdistances l l' hl⟩
  · obtain ⟨j, hj, rfl, -⟩ := hl
    exact Nat.lt_of_lt_of_le (Nat.add_lt_add_left hj n) hn
  · obtain ⟨j, hj, -, rfl⟩ := hl
    exact Nat.lt_of_lt_of_le (Nat.add_lt_add_left hj n') hn'

/-- A source that was read without errors is like itself, if its tokens are. -/
theorem read_like (hT : Lookalike T) {limit : Nat} {text : String}
    (hself : ∀ t ∈ (lex text).tokens, T t t) (h : (read limit text).errors = []) :
    List.Forall₂ (LikeStmt T Parser.NoLabel) (read limit text).statements
      (read limit text).statements := by
  have hquiet : (parse limit (lex text).tokens).complaints = [] :=
    List.map_eq_nil_iff.1 (List.append_eq_nil_iff.1 h).2
  exact (Parser.parse_like hT (List.forall₂_same.2 hself) hquiet).2

theorem World.prepare_later (w : World) (depth : Nat) (raw : List RawStmt) :
    Later w (w.prepare depth raw).2 :=
  ⟨w.prepare_next depth raw, fun _ hl => w.prepare_distances depth raw (Or.inl hl)⟩

theorem World.reject_later (w : World) (limits : Limits) (source : String) :
    Later w (w.reject limits source) :=
  ⟨w.prepare_next limits.depth _, fun _ hl => w.reject_distances limits source (Or.inl hl)⟩

theorem World.Fresh.prepare (h : w.Fresh) (depth : Nat) (raw : List RawStmt) :
    (w.prepare depth raw).2.Fresh := fun l hl =>
  (w.prepare_distances depth raw (Or.inr hl)).trans
    (h l (Nat.le_trans (w.prepare_next depth raw) hl))

theorem World.Fresh.reject (h : w.Fresh) (limits : Limits) (source : String) :
    (w.reject limits source).Fresh := fun l hl =>
  (w.reject_distances limits source (Or.inr hl)).trans
    (h l (Nat.le_trans (w.prepare_next limits.depth _) hl))

/-- Worlds alike are still alike if both get more labels, and distances for these only. -/
theorem Like.retable (hw : Like T base base' w w') {n n' : UseId} {D D' : Distances} (b b' : Bool)
    (hlater : Later w { w with hadError := b, nextUse := n, distances := D })
    (hlater' : Later w' { w' with hadError := b', nextUse := n', distances := D' })
    (hfresh : { w with hadError := b, nextUse := n, distances := D }.Fresh)
    (hfresh' : { w' with hadError := b', nextUse := n', distances := D' }.Fresh) :
    Like T base base' { w with hadError := b, nextUse := n, distances := D }
      { w' with hadError := b', nextUse := n', distances := D' } :=
  { hw with
    code := hw.code.imp fun _ _ hc => hc.later hlater hlater'
    fresh := hfresh
    fresh' := hfresh' }

theorem Like.prepareLeft (hw : Like T base base' w w') (depth : Nat) (raw : List RawStmt) :
    Like T base base' (w.prepare depth raw).2 w' :=
  hw.retable false w'.hadError (w.prepare_later depth raw) (later_refl w')
    (hw.fresh.prepare depth raw) hw.fresh'

theorem Like.prepareRight (hw : Like T base base' w w') (depth : Nat) (raw : List RawStmt) :
    Like T base base' w (w'.prepare depth raw).2 :=
  hw.retable w.hadError false (later_refl w) (w'.prepare_later depth raw) hw.fresh
    (hw.fresh'.prepare depth raw)

/-- Raw trees alike become statements alike, also in their distances, with as many errors of
scope. -/
theorem prepare_like (hT : Lookalike T) (hw : w.Fresh) (hw' : w'.Fresh) (depth : Nat)
    {raw raw' : List RawStmt} (h : List.Forall₂ (LikeStmt T Parser.NoLabel) raw raw') :
    List.Forall₂ (LikeStmt T (SameUse (w.prepare depth raw).2 (w'.prepare depth raw').2))
        (w.prepare depth raw).1 (w'.prepare depth raw').1 ∧
      (Scriptling.resolve depth w.distances (w.prepare depth raw).1).1.errors.size =
        (Scriptling.resolve depth w'.distances (w'.prepare depth raw').1).1.errors.size := by
  obtain ⟨k, ss, ss', hss, hss', hlike⟩ := labelAll_like h w.nextUse w'.nextUse
  have hnone : ∀ l l', InTurn w.nextUse w'.nextUse k l l' →
      w.distances[l]? = w'.distances[l']? := by
    rintro _ _ ⟨j, -, rfl, rfl⟩
    rw [hw _ (Nat.le_add_right _ _), hw' _ (Nat.le_add_right _ _)]
  have htells := resolve_tells hT (oneToOne_inTurn _ _ _) hlike hnone depth
  rw [World.prepare_of_label hss, World.prepare_of_label hss']
  exact ⟨sameUse_inTurn hlike (Nat.le_refl _) (Nat.le_refl _) htells.distances, htells.errors⟩

theorem Like.reportAll (hw : Like T base base' w w') (errors : List StaticError) :
    Like T base base' { w with reports := w.reports ++ (errors.map Report.static).toArray }
      { w' with reports := w'.reports ++ (errors.map Report.static).toArray } := by
  obtain ⟨new, new', hnew, hnew', halike⟩ := hw.reports
  refine { hw with reports := ⟨new ++ errors.map .static, new' ++ errors.map .static, ?_, ?_, ?_⟩ }
  · rw [Array.toList_append, hnew, List.append_assoc]
  · rw [Array.toList_append, hnew', List.append_assoc]
  · refine List.rel_append halike (List.forall₂_same.2 fun r hr => ?_)
    obtain ⟨e, -, rfl⟩ := List.mem_map.1 hr
    exact .static

theorem Like.reject (hw : Like T base base' w w') (limits : Limits) (source : String) :
    Like T base base' (w.reject limits source) (w'.reject limits source) := by
  have hreported := hw.reportAll (w.objections limits source)
  unfold World.reject
  rw [w'.objections_eq w]
  have hlater := w.reject_later limits source
  have hlater' := w'.reject_later limits source
  exact hreported.retable true true ⟨hlater.next, hlater.kept⟩ ⟨hlater'.next, hlater'.kept⟩
    (hw.fresh.reject limits source) (hw.fresh'.reject limits source)

/-- A source, or something that is none, is run in step. -/
theorem inStep_run (hT : Lookalike T) {execute : Stmt UseId → Eval (Option Value)}
    (h : ExecutesInStep T base base' execute) (hw : Like T base base' w w') {v : Value}
    (hself : ∀ text, v = .text text → ∀ t ∈ (lex text).tokens, T t t) (limits : Limits) :
    InStep T base base' w w' (Eval.run limits.depth execute v)
      (Eval.run limits.depth execute v) := by
  have hreset : Like T base base' { w with hadError := false } { w' with hadError := false } :=
    { hw with }
  cases v with
  | text source =>
    unfold InStep
    obtain hlt | hroom := Nat.lt_or_ge limits.depth 5
    · rw [Eval.run_of_lt hlt, Eval.run_of_lt hlt]
      exact .error .overflow hreset ⟨Nat.le_refl _, fun _ _ => rfl⟩ ⟨Nat.le_refl _, fun _ _ => rfl⟩
    by_cases hnone : w.objections limits source = []
    · have haccepts := World.accepts_iff.2 ⟨hroom, hnone⟩
      have haccepts' := haccepts.elsewhere w'
      rw [haccepts.run, haccepts'.run]
      have hraw := read_like hT (hself source rfl) haccepts.reading
      obtain ⟨hss, -⟩ := prepare_like hT hw.fresh hw.fresh' limits.depth hraw
      exact (inStep_program hT h ((hw.prepareLeft _ _).prepareRight _ _) hss).since
        (w.prepare_later _ _) (w'.prepare_later _ _)
    · have hrejects : w.Rejects limits source := ⟨hroom, hnone⟩
      have hrejects' : w'.Rejects limits source :=
        ⟨hroom, fun h => hnone ((w.objections_eq w' limits source).trans h)⟩
      rw [hrejects.run, hrejects'.run]
      exact .ok (hw.reject limits source) (w.reject_later limits source)
        (w'.reject_later limits source)
  | _ => exact .error .fault hreset ⟨Nat.le_refl _, fun _ _ => rfl⟩ ⟨Nat.le_refl _, fun _ _ => rfl⟩

/-! ## The whole of evaluation -/

theorem inStep_invoke (hT : Lookalike T) (h : ∀ d < depth, GoesInStep T base base' patience d)
    (hw : Like T base base' w w') (f : Value) (vs : List Value) :
    InStep T base base' w w' (Eval.invoke patience depth f vs)
      (Eval.invoke patience depth f vs) := by
  obtain hlt | hle := Nat.lt_or_ge depth 4
  · rw [Eval.invoke_of_lt hlt]
    exact inStep_throw hw .overflow
  obtain ⟨depth, rfl⟩ := Nat.exists_eq_add_of_le' hle
  rw [Eval.invoke]
  refine inStep_codeOf hw f ?_
  rintro c c' (hc | _)
  · cases hc with
    | closure parameters body =>
      refine (inStep_openFrame hw _).bind fun v v' inner hv later later' => ?_
      refine (inStep_defineAll hT hv inner parameters vs).bind fun u u' _ hu later₁ later₁' => ?_
      have hss := body.imp fun _ _ hs =>
        LikeStmt.later (later.trans later₁) (later'.trans later₁') hs
      refine ((h (depth + 2) (by omega)).statements hu hss).bind fun _ _ r hr _ _ => ?_
      exact inStep_pure hr (r.getD .nil)
    | host texts =>
      refine inStep_perform (fun v v' hv => inStep_readClock hv)
        (fun v v' f vs hv => (h (depth + 2) (by omega)).invoke hv)
        (fun v v' source hsource hv => ?_) hw
      exact inStep_run hT (fun hv hs => (h depth (by omega)).statement hv hs) hv
        (fun text htext => texts vs text (hsource text htext)) ⟨depth, patience⟩
  · exact inStep_throw hw .fault

/-- Evaluation does not depend on labels, nor on more of tokens than what is related. -/
theorem goesInStep (hT : Lookalike T) (base base' : List Report) (patience depth : Nat) :
    GoesInStep T base base' patience depth := by
  induction depth using Nat.strongRecOn with
  | _ depth ih =>
    refine ⟨?_, ?_, ?_, ?_, fun hw ht => inStep_apply ih hw _ _ ht,
      fun hw => inStep_invoke hT ih hw _ _⟩
    · intro w w' chain e e' hw he
      cases depth with
      | zero => exact inStep_throw hw .overflow
      | succ depth => exact inStep_expression hT (ih depth (Nat.lt_succ_self depth)) hw he
    · intro w w' chain es es' hw hes
      cases depth with
      | zero => exact inStep_throw hw .overflow
      | succ depth =>
        exact inStep_values (fun hw he => (ih depth (Nat.lt_succ_self depth)).expression hw he) hw
          hes
    · intro w w' chain s s' hw hs
      cases depth with
      | zero => exact inStep_throw hw .overflow
      | succ depth => exact inStep_statement hT (ih depth (Nat.lt_succ_self depth)) hw hs
    · intro w w' chain ss ss' hw hss
      cases depth with
      | zero => exact inStep_throw hw .overflow
      | succ depth =>
        exact inStep_sequence (fun hw hs => (ih depth (Nat.lt_succ_self depth)).statement hw hs) hw
          hss

/-- Statements outside all blocks are executed in step. -/
theorem executesInStep (hT : Lookalike T) (base base' : List Report) (limits : Limits) :
    ExecutesInStep T base base' (Eval.statement limits.patience limits.depth globalChain) :=
  fun hw hs => (goesInStep hT base base' limits.patience limits.depth).statement hw hs

end Scriptling
