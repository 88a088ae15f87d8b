-- Programs in order. `ScopedStmt` says of each part of a program what the evaluation of it relies
-- on: each use has the distance that the scopes around it give, no name is declared twice in a
-- scope or read before it is ready, and each part was visited with just these scopes. A walk that
-- finds no error proves all of this.
import Scriptling.Proofs.Grammar.Regular
import Scriptling.Proofs.Scope.Labels
import Scriptling.Proofs.Scope.Visits

namespace Scriptling

open Grammar

theorem Stmt.declares_erase {ι : Type} (s : Stmt ι) : s.erase.declares = s.declares := by
  cases s <;> rfl

/-! ## Scopes on the way through a program -/

namespace Scopes

/-- The scopes behind a statement. -/
def after (S : Scopes) : Stmt UseId → Scopes
  | .var name _ | .function name _ _ => S.note name.lexeme true
  | _ => S

/-- The scope of a function before its body: its parameters. -/
def parameterScope (ps : List Token) : Scope :=
  ps.foldl (fun scope p => scope.put p.lexeme true) .empty

theorem putIn_putIn (name : String) (b b' : Bool) (entries : List (String × Bool)) :
    Bindings.putIn name b' (Bindings.putIn name b entries) = Bindings.putIn name b' entries := by
  induction entries with
  | nil => simp [Bindings.putIn]
  | cons entry rest ih =>
    by_cases h : entry.1 = name
    · simp [Bindings.putIn, h]
    · simp [Bindings.putIn, h, ih]

theorem note_note (S : Scopes) (name : String) (b b' : Bool) :
    (S.note name b).note name b' = S.note name b' := by
  cases S with
  | nil => rfl
  | cons scope outer =>
    have hput : (scope.put name b).put name b' = scope.put name b' :=
      congrArg Bindings.mk (putIn_putIn name b b' scope.entries)
    exact congrArg (· :: outer) hput

theorem after_of_not_declares {S : Scopes} {s : Stmt UseId} (h : s.declares = false) :
    S.after s = S := by
  cases s with
  | var | function => cases h
  | _ => rfl

end Scopes

/-! ## Parts of a program in order -/

/-- An expression of the program, with the scopes `S` around it. -/
inductive ScopedExpr (P : Accepted) (S : Scopes) : Trail → Expr UseId → Prop
  | literal {path : Trail} {v : Value} (visited : P.Visits path S (.expression (.literal v)))
      (plain : v.callable? = none) : ScopedExpr P S path (.literal v)
  | grouping {path : Trail} {e : Expr UseId}
      (visited : P.Visits path S (.expression (.grouping e)))
      (inner : ScopedExpr P S (0 :: path) e) :
      ScopedExpr P S path (.grouping e)
  | unary {path : Trail} {operator : Token} {e : Expr UseId}
      (visited : P.Visits path S (.expression (.unary operator e)))
      (hoperator : operator.kind ∈ unaryKinds) (right : ScopedExpr P S (0 :: path) e) :
      ScopedExpr P S path (.unary operator e)
  | binary {path : Trail} {operator : Token} {e e' : Expr UseId}
      (visited : P.Visits path S (.expression (.binary e operator e')))
      (hoperator : operator.kind ∈ binaryKinds) (left : ScopedExpr P S (0 :: path) e)
      (right : ScopedExpr P S (1 :: path) e') : ScopedExpr P S path (.binary e operator e')
  | logical {path : Trail} {operator : Token} {e e' : Expr UseId}
      (visited : P.Visits path S (.expression (.logical e operator e')))
      (left : ScopedExpr P S (0 :: path) e) (right : ScopedExpr P S (1 :: path) e') :
      ScopedExpr P S path (.logical e operator e')
  | variable {path : Trail} {name : Token} {use : UseId}
      (visited : P.Visits path S (.expression (.variable name use))) (below : use < P.nextUse)
      (recorded : P.found.distances[use]? = S.distance? name.lexeme)
      (ready : S.unfinished name.lexeme = false) : ScopedExpr P S path (.variable name use)
  | assign {path : Trail} {name : Token} {e : Expr UseId} {use : UseId}
      (visited : P.Visits path S (.expression (.assign name e use))) (below : use < P.nextUse)
      (recorded : P.found.distances[use]? = S.distance? name.lexeme)
      (value : ScopedExpr P S (0 :: path) e) : ScopedExpr P S path (.assign name e use)
  | call {path : Trail} {paren : Token} {e : Expr UseId} {es : List (Expr UseId)}
      (visited : P.Visits path S (.expression (.call e paren es)))
      (callee : ScopedExpr P S (0 :: path) e)
      (arguments : ∀ i e', es[i]? = some e' → ScopedExpr P S ((i + 1) :: path) e') :
      ScopedExpr P S path (.call e paren es)

mutual
/-- A statement of the program, with the scopes `S` around it. `b` says whether a function lies
around. -/
inductive ScopedStmt (P : Accepted) : Bool → Scopes → Trail → Stmt UseId → Prop
  | expression {b : Bool} {S : Scopes} {path : Trail} {e : Expr UseId}
      (visited : P.Visits path S (.statement (.expression e)))
      (value : ScopedExpr P S (0 :: path) e) : ScopedStmt P b S path (.expression e)
  | print {b : Bool} {S : Scopes} {path : Trail} {e : Expr UseId}
      (visited : P.Visits path S (.statement (.print e)))
      (value : ScopedExpr P S (0 :: path) e) : ScopedStmt P b S path (.print e)
  | var {b : Bool} {S : Scopes} {path : Trail} {name : Token} {e : Option (Expr UseId)}
      (visited : P.Visits path S (.statement (.var name e)))
      (new : S.declared name.lexeme = false)
      (value : ∀ e' ∈ e, ScopedExpr P (S.note name.lexeme false) (0 :: path) e') :
      ScopedStmt P b S path (.var name e)
  | block {b : Bool} {S : Scopes} {path : Trail} {ss : List (Stmt UseId)}
      (visited : P.Visits path S (.statement (.block ss)))
      (body : ScopedBody P b (.empty :: S) path 0 ss) : ScopedStmt P b S path (.block ss)
  | branch {b : Bool} {S : Scopes} {path : Trail} {e : Expr UseId} {s : Stmt UseId}
      {o : Option (Stmt UseId)} (visited : P.Visits path S (.statement (.branch e s o)))
      (condition : ScopedExpr P S (0 :: path) e) (yes : ScopedStmt P b S (1 :: path) s)
      (hyes : s.declares = false) (no : ∀ s' ∈ o, ScopedStmt P b S (2 :: path) s')
      (hno : ∀ s' ∈ o, s'.declares = false) : ScopedStmt P b S path (.branch e s o)
  | loop {b : Bool} {S : Scopes} {path : Trail} {e : Expr UseId} {s : Stmt UseId}
      (visited : P.Visits path S (.statement (.loop e s)))
      (condition : ScopedExpr P S (0 :: path) e) (body : ScopedStmt P b S (1 :: path) s)
      (hbody : s.declares = false) : ScopedStmt P b S path (.loop e s)
  | function {b : Bool} {S : Scopes} {path : Trail} {name : Token} {ps : List Token}
      {ss : List (Stmt UseId)} (visited : P.Visits path S (.statement (.function name ps ss)))
      (new : S.declared name.lexeme = false) (distinct : (ps.map Token.lexeme).Nodup)
      (body : ScopedBody P true (Scopes.parameterScope ps :: S.note name.lexeme true) path 0 ss) :
      ScopedStmt P b S path (.function name ps ss)
  | giveBack {S : Scopes} {path : Trail} {keyword : Token} {e : Option (Expr UseId)}
      (visited : P.Visits path S (.statement (.giveBack keyword e)))
      (value : ∀ e' ∈ e, ScopedExpr P S (0 :: path) e') :
      ScopedStmt P true S path (.giveBack keyword e)

/-- Statements one after the other, where `i` stand before them. -/
inductive ScopedBody (P : Accepted) : Bool → Scopes → Trail → Nat → List (Stmt UseId) → Prop
  | nil {b : Bool} {S : Scopes} {path : Trail} {i : Nat} : ScopedBody P b S path i []
  | cons {b : Bool} {S : Scopes} {path : Trail} {i : Nat} {s : Stmt UseId} {ss : List (Stmt UseId)}
      (first : ScopedStmt P b S (i :: path) s)
      (rest : ScopedBody P b (S.after s) path (i + 1) ss) : ScopedBody P b S path i (s :: ss)
end

namespace Resolve

/-! ## What is kept of a walk -/

/-- The walk from `f` to `f'` met no error, and what it recorded for the given labels is what the
walk over the whole program leaves. -/
structure Kept (P : Accepted) (f f' : Findings) (labels : List UseId) : Prop where
  clean : f'.errors = #[]
  nodup : labels.Nodup
  below : ∀ l ∈ labels, l < P.nextUse
  fresh : ∀ l ∈ labels, f.distances[l]? = none
  kept : ∀ l ∈ labels, P.found.distances[l]? = f'.distances[l]?

/-- A walk in two parts, each with labels of its own. -/
theorem Kept.split {P : Accepted} {f f₁ f₂ : Findings} {labels labels' : List UseId}
    (h : Kept P f f₂ (labels ++ labels')) (h₁ : Extends f f₁ labels) (h₂ : Extends f₁ f₂ labels') :
    Kept P f f₁ labels ∧ Kept P f₁ f₂ labels' := by
  obtain ⟨hnodup, hnodup', hdisjoint⟩ := List.nodup_append.1 h.nodup
  have hleft : ∀ l ∈ labels, l ∉ labels' := fun l hl hl' => hdisjoint l hl l hl' rfl
  have hright : ∀ l ∈ labels', l ∉ labels := fun l hl hl' => hdisjoint l hl' l hl rfl
  refine ⟨⟨h₂.clean h.clean, hnodup, ?_, ?_, ?_⟩, ⟨h.clean, hnodup', ?_, ?_, ?_⟩⟩
  · exact fun l hl => h.below l (List.mem_append_left _ hl)
  · exact fun l hl => h.fresh l (List.mem_append_left _ hl)
  · intro l hl
    rw [h.kept l (List.mem_append_left _ hl), h₂.kept l (hleft l hl)]
  · exact fun l hl => h.below l (List.mem_append_right _ hl)
  · intro l hl
    rw [h₁.kept l (hright l hl)]
    exact h.fresh l (List.mem_append_right _ hl)
  · exact fun l hl => h.kept l (List.mem_append_right _ hl)

theorem Kept.perm {P : Accepted} {f f' : Findings} {labels labels' : List UseId}
    (h : Kept P f f' labels) (hperm : labels.Perm labels') : Kept P f f' labels' :=
  ⟨h.clean, hperm.nodup_iff.1 h.nodup, fun l hl => h.below l (hperm.mem_iff.2 hl),
    fun l hl => h.fresh l (hperm.mem_iff.2 hl), fun l hl => h.kept l (hperm.mem_iff.2 hl)⟩

/-- A report would leave an error behind. -/
theorem reportIf_clean {wrong : Bool} {e : StaticError} {f f' : Findings}
    (h : reportIf wrong e f = .ok () f') (hclean : f'.errors = #[]) : wrong = false ∧ f' = f := by
  cases wrong with
  | false =>
    cases h
    exact ⟨rfl, rfl⟩
  | true =>
    cases h
    exact absurd hclean (by simp)

theorem record_recorded {S : Scopes} {name : Token} {use : UseId} {f f' : Findings}
    (h : record S name use f = .ok () f') (hfresh : f.distances[use]? = none) :
    f'.distances[use]? = S.distance? name.lexeme := by
  unfold record at h
  cases hd : S.distance? name.lexeme with
  | none =>
    rw [hd] at h
    cases h
    exact hfresh
  | some d =>
    rw [hd] at h
    cases h
    exact Std.TreeMap.getElem?_insert_self

theorem declare_clean {S S' : Scopes} {name : Token} {f f' : Findings}
    (h : declare S name f = .ok S' f') (hclean : f'.errors = #[]) :
    S.declared name.lexeme = false ∧ S' = S.note name.lexeme false ∧ f' = f := by
  rw [declare_eq] at h
  obtain ⟨_, f₁, hreport, hpure⟩ := ok_bind.1 h
  cases hpure
  obtain ⟨hwrong, rfl⟩ := reportIf_clean hreport hclean
  exact ⟨hwrong, rfl, rfl⟩

theorem declareReady_clean {S S' : Scopes} {name : Token} {f f' : Findings}
    (h : declareReady S name f = .ok S' f') (hclean : f'.errors = #[]) :
    S.declared name.lexeme = false ∧ S' = S.note name.lexeme true ∧ f' = f := by
  obtain ⟨S₁, f₁, hdeclare, hpure⟩ := ok_bind.1 h
  cases hpure
  obtain ⟨hnew, rfl, rfl⟩ := declare_clean hdeclare hclean
  exact ⟨hnew, Scopes.note_note .., rfl⟩

/-! ## A clean walk leaves its program in order -/

variable {P : Accepted}

theorem touches_arguments (S : Scopes) (d : Nat) (es : List (Expr UseId)) :
    Touches (es.forM (expression S d)) (labelsOfAll es) := by
  rw [labelsOfAll_eq]
  exact touches_forM (touches_expression S d)

/-- What holds of each argument where the walk comes to it, holds of all of them. -/
theorem kept_arguments {S : Scopes} {d : Nat} {es : List (Expr UseId)} {f f' : Findings}
    {Q : Nat → Expr UseId → Prop} (hitem : ∀ i e f₁ f₂, es[i]? = some e →
      (es.take i).forM (expression S d) f = .ok () f₁ → expression S d e f₁ = .ok () f₂ →
      Kept P f₁ f₂ (labelsOf e) → Q i e)
    (hrun : es.forM (expression S d) f = .ok () f') (hkept : Kept P f f' (labelsOfAll es)) :
    ∀ i e, es[i]? = some e → Q i e := by
  induction es generalizing f Q with
  | nil => exact fun i e hi => absurd hi (by simp)
  | cons e es ih =>
    obtain ⟨_, f₁, hrun₁, hrun₂⟩ := ok_bind.1 hrun
    rw [labelsOfAll, Expr.usesInAll, List.map_append] at hkept
    obtain ⟨hkept₁, hkept₂⟩ := hkept.split ((touches_expression S d e).ok hrun₁)
      ((touches_arguments S d es).ok hrun₂)
    intro i e' hi
    cases i with
    | zero =>
      cases hi
      exact hitem 0 e f f₁ rfl rfl hrun₁ hkept₁
    | succ i =>
      refine ih (Q := fun j e => Q (j + 1) e)
        (fun j e₁ f₂ f₃ hj hbefore hrun' hkept' => ?_) hrun₂ hkept₂ i e' hi
      exact hitem (j + 1) e₁ f₂ f₃ hj (ok_bind.2 ⟨(), f₁, hrun₁, hbefore⟩) hrun' hkept'

theorem scoped_expression {d : Nat} {S : Scopes} {e : Expr UseId} {path : Trail} {f f' : Findings}
    (hregular : RegularExpr e.erase) (hreach : P.Reaches path (.expression S d e) f)
    (hrun : expression S d e f = .ok () f') (hkept : Kept P f f' (labelsOf e)) :
    ScopedExpr P S path e := by
  induction d generalizing e path f f' with
  | zero => cases hrun
  | succ d ih =>
    have hvisited : P.Visits path S (.expression e) := ⟨_, f, hreach, rfl, rfl⟩
    cases e with
    | literal v =>
      cases hregular with
      | literal hplain => exact .literal hvisited hplain
    | grouping e =>
      cases hregular with
      | grouping h => exact .grouping hvisited (ih h (.inner hreach .grouping) hrun hkept)
    | unary operator e =>
      cases hregular with
      | unary hoperator h =>
        exact .unary hvisited hoperator (ih h (.inner hreach .unary) hrun hkept)
    | binary e operator e' =>
      cases hregular with
      | binary hoperator h h' =>
        obtain ⟨_, f₁, hrun₁, hrun₂⟩ := ok_bind.1 hrun
        rw [labelsOf, Expr.uses, List.map_append] at hkept
        obtain ⟨hkept₁, hkept₂⟩ := hkept.split ((touches_expression S d e).ok hrun₁)
          ((touches_expression S d e').ok hrun₂)
        exact .binary hvisited hoperator (ih h (.inner hreach .binaryLeft) hrun₁ hkept₁)
          (ih h' (.inner hreach (.binaryRight hrun₁)) hrun₂ hkept₂)
    | logical e operator e' =>
      cases hregular with
      | logical h h' =>
        obtain ⟨_, f₁, hrun₁, hrun₂⟩ := ok_bind.1 hrun
        rw [labelsOf, Expr.uses, List.map_append] at hkept
        obtain ⟨hkept₁, hkept₂⟩ := hkept.split ((touches_expression S d e).ok hrun₁)
          ((touches_expression S d e').ok hrun₂)
        exact .logical hvisited (ih h (.inner hreach .logicalLeft) hrun₁ hkept₁)
          (ih h' (.inner hreach (.logicalRight hrun₁)) hrun₂ hkept₂)
    | «variable» name use =>
      rw [expression_variable] at hrun
      obtain ⟨_, f₁, hreport, hrecord⟩ := ok_bind.1 hrun
      have hclean : f₁.errors = #[] := ((touches_record S name use).ok hrecord).clean hkept.clean
      obtain ⟨hready, rfl⟩ := reportIf_clean hreport hclean
      have huse : use ∈ labelsOf (.variable name use) := List.mem_singleton_self use
      refine .variable hvisited (hkept.below use huse) ?_ hready
      rw [hkept.kept use huse]
      exact record_recorded hrecord (hkept.fresh use huse)
    | assign name e use =>
      cases hregular with
      | assign h =>
        obtain ⟨_, f₁, hrun₁, hrecord⟩ := ok_bind.1 hrun
        -- the value is walked over before the use is recorded
        have hswap : Kept P f f' (labelsOf e ++ [use]) :=
          hkept.perm (List.perm_append_comm : ([use] ++ labelsOf e).Perm _)
        obtain ⟨hkept₁, hkept₂⟩ := hswap.split ((touches_expression S d e).ok hrun₁)
          ((touches_record S name use).ok hrecord)
        have huse : use ∈ [use] := List.mem_singleton_self use
        refine .assign hvisited (hkept₂.below use huse) ?_
          (ih h (.inner hreach .assigned) hrun₁ hkept₁)
        rw [hkept₂.kept use huse]
        exact record_recorded hrecord (hkept₂.fresh use huse)
    | call e paren es =>
      cases hregular with
      | call h hes =>
        obtain ⟨_, f₁, hrun₁, hrun₂⟩ := ok_bind.1 hrun
        rw [labelsOf, Expr.uses, List.map_append] at hkept
        obtain ⟨hkept₁, hkept₂⟩ := hkept.split ((touches_expression S d e).ok hrun₁)
          ((touches_arguments S d es).ok hrun₂)
        refine .call hvisited (ih h (.inner hreach .callee) hrun₁ hkept₁) ?_
        refine kept_arguments (fun i e' f₂ f₃ hi hbefore hrun' hkept' => ?_) hrun₂ hkept₂
        have hregular' : RegularExpr e'.erase := by
          refine hes _ ?_
          rw [Expr.eraseAll_eq_map]
          exact List.mem_map_of_mem (List.mem_of_getElem? hi)
        exact ih hregular' (.inner hreach (.argument hrun₁ hbefore hi)) hrun' hkept'
    | alien text => cases hrun

/-- Statements are in order if each is where the walk comes to it. -/
theorem kept_body {walk : Scopes → Stmt UseId → Resolve Scopes}
    (htouches : ∀ S s, Touches (walk S s) (labelsIn s)) {ss : List (Stmt UseId)} {S S' : Scopes}
    {f f' : Findings} {b : Bool} {path : Trail} {i : Nat}
    (hitem : ∀ j s S₁ S₂ f₁ f₂, ss[j]? = some s → (ss.take j).foldlM walk S f = .ok S₁ f₁ →
      walk S₁ s f₁ = .ok S₂ f₂ → Kept P f₁ f₂ (labelsIn s) →
      ScopedStmt P b S₁ ((i + j) :: path) s ∧ S₂ = S₁.after s)
    (hrun : ss.foldlM walk S f = .ok S' f') (hkept : Kept P f f' (labelsInAll ss)) :
    ScopedBody P b S path i ss := by
  induction ss generalizing S f i with
  | nil => exact .nil
  | cons s ss ih =>
    rw [List.foldlM_cons] at hrun
    obtain ⟨S₁, f₁, hrun₁, hrun₂⟩ := ok_bind.1 hrun
    have hrest : Touches (ss.foldlM walk S₁) (labelsInAll ss) := by
      rw [labelsInAll_eq]
      exact touches_foldlM labelsIn htouches S₁
    rw [labelsInAll, Stmt.usesInAll, List.map_append] at hkept
    obtain ⟨hkept₁, hkept₂⟩ := hkept.split ((htouches S s).ok hrun₁) (hrest.ok hrun₂)
    obtain ⟨hfirst, rfl⟩ := hitem 0 s S S₁ f f₁ rfl rfl hrun₁ hkept₁
    refine .cons hfirst (ih (fun j s' S₂ S₃ f₂ f₃ hj hbefore hrun' hkept' => ?_) hrun₂ hkept₂)
    have hlater := hitem (j + 1) s' S₂ S₃ f₂ f₃ hj ?_ hrun' hkept'
    · have hindex : i + (j + 1) = i + 1 + j := by omega
      rwa [hindex] at hlater
    · rw [List.take_succ_cons, List.foldlM_cons]
      exact ok_bind.2 ⟨_, f₁, hrun₁, hbefore⟩

/-- Parameters of different names share the scope of a function. -/
theorem parameters_clean {ps : List Token} {scope : Scope} {S S' : Scopes} {f f' : Findings}
    (hrun : ps.foldlM declareReady (scope :: S) f = .ok S' f') (hclean : f'.errors = #[]) :
    (ps.map Token.lexeme).Nodup ∧ (∀ p ∈ ps, scope.binds p.lexeme = false) ∧
      S' = ps.foldl (fun scope p => scope.put p.lexeme true) scope :: S ∧ f' = f := by
  induction ps generalizing scope f with
  | nil =>
    cases hrun
    exact ⟨List.nodup_nil, by simp, rfl, rfl⟩
  | cons p ps ih =>
    rw [List.foldlM_cons] at hrun
    obtain ⟨S₁, f₁, hrun₁, hrun₂⟩ := ok_bind.1 hrun
    have htouches := (touches_foldlM (fun _ => []) touches_declareReady S₁).ok hrun₂
    obtain ⟨hnew, rfl, rfl⟩ := declareReady_clean hrun₁ (htouches.clean hclean)
    obtain ⟨hnodup, hfree, rfl, rfl⟩ := ih hrun₂
    have hother : ∀ q ∈ ps, q.lexeme ≠ p.lexeme := by
      intro q hq heq
      have hbinds := hfree q hq
      rw [heq, Bindings.binds, Bindings.get?_put_self] at hbinds
      cases hbinds
    refine ⟨?_, ?_, rfl, rfl⟩
    · rw [List.map_cons, List.nodup_cons]
      refine ⟨fun hmem => ?_, hnodup⟩
      obtain ⟨q, hq, heq⟩ := List.mem_map.1 hmem
      exact hother q hq heq
    · intro q hq
      obtain rfl | hq := List.mem_cons.1 hq
      · exact hnew
      · have hbinds := hfree q hq
        rwa [Bindings.binds, Bindings.get?_put_of_ne _ (hother q hq)] at hbinds

theorem scoped_option {d : Nat} {S : Scopes} {e : Option (Expr UseId)} {path : Trail}
    {f f' : Findings} (hregular : ∀ e' ∈ e.map Expr.erase, RegularExpr e')
    (hreach : ∀ e' ∈ e, P.Reaches path (.expression S d e') f)
    (hrun : e.forM (expression S d) f = .ok () f')
    (hkept : Kept P f f' ((Expr.usesInOption e).map Use.label)) :
    ∀ e' ∈ e, ScopedExpr P S path e' := by
  intro e' he
  cases he
  exact scoped_expression (hregular _ rfl) (hreach _ rfl) hrun hkept

theorem regular_all {ss : List (Stmt UseId)} (h : ∀ s ∈ Stmt.eraseAll ss, RegularStmt s) :
    ∀ s ∈ ss, RegularStmt s.erase := by
  rw [Stmt.eraseAll_eq_map] at h
  exact fun s hs => h _ (List.mem_map_of_mem hs)

theorem regular_item {ss : List (Stmt UseId)} {s : Stmt UseId} {i : Nat}
    (h : ∀ s ∈ Stmt.eraseAll ss, RegularStmt s) (hi : ss[i]? = some s) : RegularStmt s.erase :=
  regular_all h s (List.mem_of_getElem? hi)

/-- Regular statements over which the walk comes at depth `d` without an error are in order. -/
def InOrder (P : Accepted) (d : Nat) : Prop :=
  ∀ ⦃b : Bool⦄ ⦃S S' : Scopes⦄ ⦃s : Stmt UseId⦄ ⦃path : Trail⦄ ⦃f f' : Findings⦄,
    RegularStmt s.erase → P.Reaches path (.statement d b S s) f →
    statement d b S s f = .ok S' f' → Kept P f f' (labelsIn s) →
    ScopedStmt P b S path s ∧ S' = S.after s

section Statements

variable {d : Nat} {b : Bool} {S S' : Scopes} {path : Trail} {f f' : Findings}

theorem scoped_var {name : Token} {e : Option (Expr UseId)}
    (hregular : ∀ e' ∈ e.map Expr.erase, RegularExpr e')
    (hreach : P.Reaches path (.statement (d + 1) b S (.var name e)) f)
    (hrun : statement (d + 1) b S (.var name e) f = .ok S' f')
    (hkept : Kept P f f' (labelsIn (.var name e))) :
    ScopedStmt P b S path (.var name e) ∧ S' = S.after (.var name e) := by
  obtain ⟨S₁, f₁, hdeclare, hmore⟩ := ok_bind.1 hrun
  obtain ⟨_, f₂, hvalue, hpure⟩ := ok_bind.1 hmore
  cases hpure
  have hclean := ((touches_option S₁ d e).ok hvalue).clean hkept.clean
  obtain ⟨hnew, rfl, rfl⟩ := declare_clean hdeclare hclean
  refine ⟨.var ⟨_, f₁, hreach, rfl, rfl⟩ hnew (scoped_option hregular (fun e' he => ?_) hvalue
    hkept), Scopes.note_note ..⟩
  cases he
  exact .inner hreach (.initializer hdeclare)

theorem scoped_block (ih : ∀ d' < d + 1, InOrder P d') {ss : List (Stmt UseId)}
    (hregular : ∀ s ∈ Stmt.eraseAll ss, RegularStmt s)
    (hreach : P.Reaches path (.statement (d + 1) b S (.block ss)) f)
    (hrun : statement (d + 1) b S (.block ss) f = .ok S' f')
    (hkept : Kept P f f' (labelsIn (.block ss))) :
    ScopedStmt P b S path (.block ss) ∧ S' = S.after (.block ss) := by
  obtain ⟨_, f₁, hbody, hpure⟩ := ok_bind.1 hrun
  cases hpure
  cases d with
  | zero => cases hbody
  | succ d =>
    obtain ⟨S₁, f₂, hfold, hpure⟩ := ok_bind.1 hbody
    cases hpure
    refine ⟨.block ⟨_, f, hreach, rfl, rfl⟩ (kept_body (touches_statement d b) ?_ hfold hkept), rfl⟩
    intro j s S₁ S₂ f₁ f₂ hj hbefore hrun' hkept'
    rw [Nat.zero_add]
    exact ih d (by omega) (regular_item hregular hj) (.inner hreach (.block hbefore hj)) hrun'
      hkept'

/-- Neither side of a branch declares anything, so both are walked over with the same scopes. -/
theorem scoped_branch (ih : InOrder P d) {e : Expr UseId} {s : Stmt UseId}
    {o : Option (Stmt UseId)} (hcondition : RegularExpr e.erase) (hyes : RegularStmt s.erase)
    (hdeclares : s.erase.declares = false)
    (hno : ∀ s' ∈ Stmt.eraseOption o, RegularStmt s' ∧ s'.declares = false)
    (hreach : P.Reaches path (.statement (d + 1) b S (.branch e s o)) f)
    (hrun : statement (d + 1) b S (.branch e s o) f = .ok S' f')
    (hkept : Kept P f f' (labelsIn (.branch e s o))) :
    ScopedStmt P b S path (.branch e s o) ∧ S' = S.after (.branch e s o) := by
  have hvisited : P.Visits path S (.statement (.branch e s o)) := ⟨_, f, hreach, rfl, rfl⟩
  obtain ⟨_, f₁, hrun₁, hmore⟩ := ok_bind.1 hrun
  obtain ⟨S₁, f₂, hrun₂, hrun₃⟩ := ok_bind.1 hmore
  rw [Stmt.declares_erase] at hdeclares
  rw [labelsIn, Stmt.uses, List.append_assoc, List.map_append, List.map_append] at hkept
  have hlast := (touches_otherwise (touches_statement d b S₁) o).ok hrun₃
  obtain ⟨hkept₁, hkept'⟩ := hkept.split ((touches_expression S d e).ok hrun₁)
    (((touches_statement d b S s).ok hrun₂).append hlast)
  obtain ⟨hkept₂, hkept₃⟩ := hkept'.split ((touches_statement d b S s).ok hrun₂) hlast
  obtain ⟨hscoped, rfl⟩ := ih hyes (.inner hreach (.yes hrun₁)) hrun₂ hkept₂
  rw [Scopes.after_of_not_declares hdeclares] at hrun₂ hrun₃
  have hvalue := scoped_expression hcondition (.inner hreach .branchCondition) hrun₁ hkept₁
  cases o with
  | none =>
    cases hrun₃
    exact ⟨.branch hvisited hvalue hscoped hdeclares (by simp) (by simp), rfl⟩
  | some s' =>
    obtain ⟨hregular, hdeclares'⟩ := hno _ rfl
    rw [Stmt.declares_erase] at hdeclares'
    obtain ⟨hscoped', rfl⟩ := ih hregular (.inner hreach (.no hrun₁ hrun₂)) hrun₃ hkept₃
    refine ⟨.branch hvisited hvalue hscoped hdeclares ?_ ?_,
      Scopes.after_of_not_declares hdeclares'⟩
    · intro s₁ hs₁
      cases hs₁
      exact hscoped'
    · intro s₁ hs₁
      cases hs₁
      exact hdeclares'

theorem scoped_loop (ih : InOrder P d) {e : Expr UseId} {s : Stmt UseId}
    (hcondition : RegularExpr e.erase) (hbody : RegularStmt s.erase)
    (hdeclares : s.erase.declares = false)
    (hreach : P.Reaches path (.statement (d + 1) b S (.loop e s)) f)
    (hrun : statement (d + 1) b S (.loop e s) f = .ok S' f')
    (hkept : Kept P f f' (labelsIn (.loop e s))) :
    ScopedStmt P b S path (.loop e s) ∧ S' = S.after (.loop e s) := by
  obtain ⟨_, f₁, hrun₁, hrun₂⟩ := ok_bind.1 hrun
  rw [labelsIn, Stmt.uses, List.map_append] at hkept
  obtain ⟨hkept₁, hkept₂⟩ := hkept.split ((touches_expression S d e).ok hrun₁)
    ((touches_statement d b S s).ok hrun₂)
  obtain ⟨hscoped, rfl⟩ := ih hbody (.inner hreach (.loopBody hrun₁)) hrun₂ hkept₂
  have hvalue := scoped_expression hcondition (.inner hreach .loopCondition) hrun₁ hkept₁
  rw [Stmt.declares_erase] at hdeclares
  exact ⟨.loop ⟨_, f, hreach, rfl, rfl⟩ hvalue hscoped hdeclares,
    Scopes.after_of_not_declares hdeclares⟩

theorem scoped_function (ih : ∀ d' < d + 1, InOrder P d') {name : Token} {ps : List Token}
    {ss : List (Stmt UseId)} (hregular : ∀ s ∈ Stmt.eraseAll ss, RegularStmt s)
    (hreach : P.Reaches path (.statement (d + 1) b S (.function name ps ss)) f)
    (hrun : statement (d + 1) b S (.function name ps ss) f = .ok S' f')
    (hkept : Kept P f f' (labelsIn (.function name ps ss))) :
    ScopedStmt P b S path (.function name ps ss) ∧ S' = S.after (.function name ps ss) := by
  obtain ⟨S₁, f₁, hdeclare, hmore⟩ := ok_bind.1 hrun
  obtain ⟨_, f₂, hfunction, hpure⟩ := ok_bind.1 hmore
  cases hpure
  obtain _ | _ | d := d
  · cases hfunction
  · obtain ⟨_, _, _, hbody⟩ := ok_bind.1 hfunction
    cases hbody
  · obtain ⟨S₂, f₃, hparameters, hbody⟩ := ok_bind.1 hfunction
    obtain ⟨S₃, f₄, hfold, hpure⟩ := ok_bind.1 hbody
    cases hpure
    have hclean : f₃.errors = #[] :=
      ((touches_foldlM labelsIn (touches_statement d true) S₂).ok hfold).clean hkept.clean
    obtain ⟨hdistinct, -, rfl, rfl⟩ := parameters_clean hparameters hclean
    obtain ⟨hnew, rfl, rfl⟩ := declareReady_clean hdeclare hclean
    refine ⟨.function ⟨_, _, hreach, rfl, rfl⟩ hnew hdistinct
      (kept_body (touches_statement d true) ?_ hfold hkept), rfl⟩
    intro j s S₁ S₂ f₁ f₂ hj hbefore hrun' hkept'
    rw [Nat.zero_add]
    exact ih d (by omega) (regular_item hregular hj)
      (.inner hreach (.function hdeclare hparameters hbefore hj)) hrun' hkept'

theorem scoped_giveBack {keyword : Token} {e : Option (Expr UseId)}
    (hregular : ∀ e' ∈ e.map Expr.erase, RegularExpr e')
    (hreach : P.Reaches path (.statement (d + 1) b S (.giveBack keyword e)) f)
    (hrun : statement (d + 1) b S (.giveBack keyword e) f = .ok S' f')
    (hkept : Kept P f f' (labelsIn (.giveBack keyword e))) :
    ScopedStmt P b S path (.giveBack keyword e) ∧ S' = S.after (.giveBack keyword e) := by
  rw [statement_giveBack] at hrun
  obtain ⟨_, f₁, hreport, hmore⟩ := ok_bind.1 hrun
  obtain ⟨_, f₂, hvalue, hpure⟩ := ok_bind.1 hmore
  cases hpure
  have hclean := ((touches_option S d e).ok hvalue).clean hkept.clean
  obtain ⟨hinside, rfl⟩ := reportIf_clean hreport hclean
  cases b with
  | false => cases hinside
  | true =>
    refine ⟨.giveBack ⟨_, _, hreach, rfl, rfl⟩ (scoped_option hregular (fun e' he => ?_) hvalue
      hkept), rfl⟩
    cases he
    exact .inner hreach (.giveBack hreport)

end Statements

theorem scoped_statement (P : Accepted) (d : Nat) : InOrder P d := by
  induction d using Nat.strongRecOn with
  | _ d ih =>
    intro b S S' s path f f' hregular hreach hrun hkept
    cases d with
    | zero => cases hrun
    | succ d =>
      have hvisited : P.Visits path S (.statement s) := ⟨_, f, hreach, rfl, rfl⟩
      have hinner : InOrder P d := ih d (by omega)
      cases s with
      | expression e =>
        cases hregular with
        | expression h =>
          obtain ⟨_, f₁, hrun₁, hpure⟩ := ok_bind.1 hrun
          cases hpure
          exact ⟨.expression hvisited (scoped_expression h (.inner hreach .expression) hrun₁ hkept),
            rfl⟩
      | print e =>
        cases hregular with
        | print h =>
          obtain ⟨_, f₁, hrun₁, hpure⟩ := ok_bind.1 hrun
          cases hpure
          exact ⟨.print hvisited (scoped_expression h (.inner hreach .print) hrun₁ hkept), rfl⟩
      | var name e =>
        cases hregular with
        | var h => exact scoped_var h hreach hrun hkept
      | block ss =>
        cases hregular with
        | block h => exact scoped_block ih h hreach hrun hkept
      | branch e s o =>
        cases hregular with
        | branch h hs hdeclares ho hdeclares' =>
          exact scoped_branch hinner h hs hdeclares (fun s' hs' => ⟨ho s' hs', hdeclares' s' hs'⟩)
            hreach hrun hkept
      | loop e s =>
        cases hregular with
        | loop h hs hdeclares => exact scoped_loop hinner h hs hdeclares hreach hrun hkept
      | function name ps ss =>
        cases hregular with
        | function h => exact scoped_function ih h hreach hrun hkept
      | giveBack keyword e =>
        cases hregular with
        | giveBack h => exact scoped_giveBack h hreach hrun hkept
      | alien text => cases hrun

/-! ## The whole program -/

/-- The walk over a top-level statement that does not go too deep. -/
theorem topLevel_ok {d : Nat} {S S' : Scopes} {s : Stmt UseId} {f f' : Findings}
    (hrun : topLevel d S s f = .ok S' f') (hdeep : ∀ e ∈ f'.errors, e.problem ≠ .tooDeep) :
    statement d false S s f = .ok S' f' := by
  rw [topLevel, tryCatch_eq] at hrun
  cases hwalk : statement d false S s f with
  | ok S₁ f₁ =>
    rw [hwalk] at hrun
    exact hrun
  | error halt f₁ =>
    rw [hwalk] at hrun
    cases halt with
    | fault => cases hrun
    | tooDeep =>
      obtain ⟨_, f₂, hreport, hpure⟩ := ok_bind.1 hrun
      cases hpure
      cases hreport
      exact absurd rfl (hdeep _ Array.mem_push_self)

end Resolve

/-- A program in which the walk finds no error is in order. -/
theorem Accepted.scopedBody {P : Accepted} {f : Findings} {u : Unit}
    (hrun : Resolve.program P.depth P.statements ⟨P.distances, #[]⟩ = .ok u f)
    (hclean : P.found.errors = #[]) (hregular : ∀ s ∈ P.statements, RegularStmt s.erase)
    (hnodup : (Resolve.labelsInAll P.statements).Nodup)
    (hbelow : ∀ l ∈ Resolve.labelsInAll P.statements, l < P.nextUse)
    (hfresh : ∀ l ∈ Resolve.labelsInAll P.statements, P.distances[l]? = none) :
    ScopedBody P false [] [] 0 P.statements := by
  have hfound : P.found = f := by
    rw [found, resolve_found, hrun]
    rfl
  obtain ⟨S, f₁, hfold, hpure⟩ := ok_bind.1 hrun
  cases hpure
  rw [hfound] at hclean
  refine Resolve.kept_body (Resolve.touches_topLevel P.depth) ?_ hfold
    ⟨hclean, hnodup, hbelow, hfresh, fun l _ => by rw [hfound]⟩
  intro j s S₁ S₂ f₁ f₂ hj hbefore hrun' hkept'
  rw [Nat.zero_add]
  exact Resolve.scoped_statement P P.depth (hregular s (List.mem_of_getElem? hj)) (.top hbefore hj)
    (Resolve.topLevel_ok hrun' (by simp [hkept'.clean])) hkept'

end Scriptling
