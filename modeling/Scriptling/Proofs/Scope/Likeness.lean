-- Trees that are alike. They have the same shape, with tokens and labels that are related; so two
-- trees may differ in the lines of their tokens and in the numbers of their uses. Labelling keeps
-- the likeness of raw trees.
import Mathlib.Data.List.Forall2
import Scriptling.Proofs.Scope.Labels

namespace Scriptling

/-- Related tokens are told apart by their lines at most, and the marks that stand for the lines
of related tokens are related too. -/
structure Lookalike (T : Token → Token → Prop) : Prop where
  kind : ∀ {t t'}, T t t' → t.kind = t'.kind
  lexeme : ∀ {t t'}, T t t' → t.lexeme = t'.lexeme
  literal : ∀ {t t'}, T t t' → t.literal = t'.literal
  ending : ∀ {t t'}, T t t' → T (.endAt t.line) (.endAt t'.line)
  nowhere : T (.endAt 0) (.endAt 0)

theorem lookalike_eq : Lookalike Eq := by
  refine ⟨?_, ?_, ?_, ?_, rfl⟩
  · rintro t _ rfl
    rfl
  · rintro t _ rfl
    rfl
  · rintro t _ rfl
    rfl
  · rintro t _ rfl
    rfl

/-! ## Likeness -/

section Likeness

variable {ι κ : Type}

/-- Expressions alike, up to related tokens and related labels. -/
inductive LikeExpr (T : Token → Token → Prop) (U : ι → κ → Prop) : Expr ι → Expr κ → Prop
  | literal {v : Value} : LikeExpr T U (.literal v) (.literal v)
  | grouping {e : Expr ι} {e' : Expr κ} (inner : LikeExpr T U e e') :
      LikeExpr T U (.grouping e) (.grouping e')
  | unary {t t' : Token} {e : Expr ι} {e' : Expr κ} (operator : T t t')
      (right : LikeExpr T U e e') : LikeExpr T U (.unary t e) (.unary t' e')
  | binary {t t' : Token} {e₁ e₂ : Expr ι} {e₁' e₂' : Expr κ} (left : LikeExpr T U e₁ e₁')
      (operator : T t t') (right : LikeExpr T U e₂ e₂') :
      LikeExpr T U (.binary e₁ t e₂) (.binary e₁' t' e₂')
  | logical {t t' : Token} {e₁ e₂ : Expr ι} {e₁' e₂' : Expr κ} (left : LikeExpr T U e₁ e₁')
      (operator : T t t') (right : LikeExpr T U e₂ e₂') :
      LikeExpr T U (.logical e₁ t e₂) (.logical e₁' t' e₂')
  | variable {t t' : Token} {l : ι} {l' : κ} (name : T t t') (label : U l l') :
      LikeExpr T U (.variable t l) (.variable t' l')
  | assign {t t' : Token} {e : Expr ι} {e' : Expr κ} {l : ι} {l' : κ} (name : T t t')
      (value : LikeExpr T U e e') (label : U l l') :
      LikeExpr T U (.assign t e l) (.assign t' e' l')
  | call {t t' : Token} {e : Expr ι} {e' : Expr κ} {es : List (Expr ι)} {es' : List (Expr κ)}
      (callee : LikeExpr T U e e') (paren : T t t') (count : es.length = es'.length)
      (arguments : ∀ (i : Nat) a a', es[i]? = some a → es'[i]? = some a' → LikeExpr T U a a') :
      LikeExpr T U (.call e t es) (.call e' t' es')
  | alien {text : String} : LikeExpr T U (.alien text) (.alien text)

/-- Statements alike, up to related tokens and related labels. -/
inductive LikeStmt (T : Token → Token → Prop) (U : ι → κ → Prop) : Stmt ι → Stmt κ → Prop
  | expression {e : Expr ι} {e' : Expr κ} (value : LikeExpr T U e e') :
      LikeStmt T U (.expression e) (.expression e')
  | print {e : Expr ι} {e' : Expr κ} (value : LikeExpr T U e e') :
      LikeStmt T U (.print e) (.print e')
  | plainVar {t t' : Token} (name : T t t') : LikeStmt T U (.var t none) (.var t' none)
  | var {t t' : Token} {e : Expr ι} {e' : Expr κ} (name : T t t') (value : LikeExpr T U e e') :
      LikeStmt T U (.var t (some e)) (.var t' (some e'))
  | block {ss : List (Stmt ι)} {ss' : List (Stmt κ)} (count : ss.length = ss'.length)
      (body : ∀ (i : Nat) s s', ss[i]? = some s → ss'[i]? = some s' → LikeStmt T U s s') :
      LikeStmt T U (.block ss) (.block ss')
  | branch {e : Expr ι} {e' : Expr κ} {s : Stmt ι} {s' : Stmt κ} (condition : LikeExpr T U e e')
      (yes : LikeStmt T U s s') : LikeStmt T U (.branch e s none) (.branch e' s' none)
  | branchElse {e : Expr ι} {e' : Expr κ} {s₁ s₂ : Stmt ι} {s₁' s₂' : Stmt κ}
      (condition : LikeExpr T U e e') (yes : LikeStmt T U s₁ s₁') (no : LikeStmt T U s₂ s₂') :
      LikeStmt T U (.branch e s₁ (some s₂)) (.branch e' s₁' (some s₂'))
  | loop {e : Expr ι} {e' : Expr κ} {s : Stmt ι} {s' : Stmt κ} (condition : LikeExpr T U e e')
      (body : LikeStmt T U s s') : LikeStmt T U (.loop e s) (.loop e' s')
  | function {t t' : Token} {ps ps' : List Token} {ss : List (Stmt ι)} {ss' : List (Stmt κ)}
      (name : T t t') (parameters : List.Forall₂ T ps ps') (count : ss.length = ss'.length)
      (body : ∀ (i : Nat) s s', ss[i]? = some s → ss'[i]? = some s' → LikeStmt T U s s') :
      LikeStmt T U (.function t ps ss) (.function t' ps' ss')
  | plainGiveBack {t t' : Token} (keyword : T t t') :
      LikeStmt T U (.giveBack t none) (.giveBack t' none)
  | giveBack {t t' : Token} {e : Expr ι} {e' : Expr κ} (keyword : T t t')
      (value : LikeExpr T U e e') : LikeStmt T U (.giveBack t (some e)) (.giveBack t' (some e'))
  | alien {text : String} : LikeStmt T U (.alien text) (.alien text)

/-- Lists of one length whose items are related in turn. -/
theorem forall₂_of_getElem? {α β : Type} {R : α → β → Prop} {as : List α} {bs : List β}
    (hcount : as.length = bs.length)
    (h : ∀ (i : Nat) a b, as[i]? = some a → bs[i]? = some b → R a b) : List.Forall₂ R as bs := by
  induction as generalizing bs with
  | nil =>
    cases bs with
    | nil => exact .nil
    | cons b bs => simp at hcount
  | cons a as ih =>
    cases bs with
    | nil => simp at hcount
    | cons b bs =>
      refine .cons (h 0 a b rfl rfl) (ih (by simpa using hcount) ?_)
      intro i a' b' ha' hb'
      exact h (i + 1) a' b' ha' hb'

theorem getElem?_of_forall₂ {α β : Type} {R : α → β → Prop} {as : List α} {bs : List β}
    (h : List.Forall₂ R as bs) {i : Nat} {a : α} {b : β} (ha : as[i]? = some a)
    (hb : bs[i]? = some b) : R a b := by
  induction h generalizing i with
  | nil => simp at ha
  | cons hab _ ih =>
    cases i with
    | zero =>
      simp only [List.getElem?_cons_zero, Option.some.injEq] at ha hb
      subst ha hb
      exact hab
    | succ i => exact ih (by simpa using ha) (by simpa using hb)

variable {T T' : Token → Token → Prop} {U U' : ι → κ → Prop}

theorem LikeExpr.called {e : Expr ι} {e' : Expr κ} {t t' : Token} {es : List (Expr ι)}
    {es' : List (Expr κ)} (callee : LikeExpr T U e e') (paren : T t t')
    (arguments : List.Forall₂ (LikeExpr T U) es es') :
    LikeExpr T U (.call e t es) (.call e' t' es') :=
  .call callee paren arguments.length_eq fun _ _ _ => getElem?_of_forall₂ arguments

theorem LikeStmt.braced {ss : List (Stmt ι)} {ss' : List (Stmt κ)}
    (body : List.Forall₂ (LikeStmt T U) ss ss') :
    LikeStmt T U (.block ss) (.block ss') :=
  .block body.length_eq fun _ _ _ => getElem?_of_forall₂ body

theorem LikeStmt.declared {t t' : Token} {ps ps' : List Token} {ss : List (Stmt ι)}
    {ss' : List (Stmt κ)} (name : T t t') (parameters : List.Forall₂ T ps ps')
    (body : List.Forall₂ (LikeStmt T U) ss ss') :
    LikeStmt T U (.function t ps ss) (.function t' ps' ss') :=
  .function name parameters body.length_eq fun _ _ _ => getElem?_of_forall₂ body

section Self

variable {T : Token → Token → Prop} {U : ι → ι → Prop}

mutual
theorem LikeExpr.refl (hT : ∀ t, T t t) (hU : ∀ l, U l l) : (e : Expr ι) → LikeExpr T U e e
  | .literal _ => .literal
  | .grouping inner => .grouping (LikeExpr.refl hT hU inner)
  | .unary operator right => .unary (hT operator) (LikeExpr.refl hT hU right)
  | .binary left operator right =>
    .binary (LikeExpr.refl hT hU left) (hT operator) (LikeExpr.refl hT hU right)
  | .logical left operator right =>
    .logical (LikeExpr.refl hT hU left) (hT operator) (LikeExpr.refl hT hU right)
  | .variable name label => .variable (hT name) (hU label)
  | .assign name value label => .assign (hT name) (LikeExpr.refl hT hU value) (hU label)
  | .call callee paren arguments =>
    .called (LikeExpr.refl hT hU callee) (hT paren) (LikeExpr.reflAll hT hU arguments)
  | .alien _ => .alien

theorem LikeExpr.reflAll (hT : ∀ t, T t t) (hU : ∀ l, U l l) :
    (es : List (Expr ι)) → List.Forall₂ (LikeExpr T U) es es
  | [] => .nil
  | e :: es => .cons (LikeExpr.refl hT hU e) (LikeExpr.reflAll hT hU es)
end

mutual
theorem LikeStmt.refl (hT : ∀ t, T t t) (hU : ∀ l, U l l) : (s : Stmt ι) → LikeStmt T U s s
  | .expression e => .expression (LikeExpr.refl hT hU e)
  | .print e => .print (LikeExpr.refl hT hU e)
  | .var name none => .plainVar (hT name)
  | .var name (some e) => .var (hT name) (LikeExpr.refl hT hU e)
  | .block body => .braced (LikeStmt.reflAll hT hU body)
  | .branch condition yes none =>
    .branch (LikeExpr.refl hT hU condition) (LikeStmt.refl hT hU yes)
  | .branch condition yes (some no) =>
    .branchElse (LikeExpr.refl hT hU condition) (LikeStmt.refl hT hU yes) (LikeStmt.refl hT hU no)
  | .loop condition body => .loop (LikeExpr.refl hT hU condition) (LikeStmt.refl hT hU body)
  | .function name _ body =>
    .declared (hT name) (List.forall₂_same.2 fun p _ => hT p) (LikeStmt.reflAll hT hU body)
  | .giveBack keyword none => .plainGiveBack (hT keyword)
  | .giveBack keyword (some e) => .giveBack (hT keyword) (LikeExpr.refl hT hU e)
  | .alien _ => .alien

theorem LikeStmt.reflAll (hT : ∀ t, T t t) (hU : ∀ l, U l l) :
    (ss : List (Stmt ι)) → List.Forall₂ (LikeStmt T U) ss ss
  | [] => .nil
  | s :: ss => .cons (LikeStmt.refl hT hU s) (LikeStmt.reflAll hT hU ss)
end

end Self

/-! ## The tokens of trees alike -/

theorem Expr.tokensOfAll_eq (es : List (Expr ι)) :
    Expr.tokensOfAll es = es.flatMap Expr.tokens := by
  induction es with
  | nil => rfl
  | cons e es ih => rw [Expr.tokensOfAll, ih, List.flatMap_cons]

theorem Stmt.tokensOfAll_eq (ss : List (Stmt ι)) :
    Stmt.tokensOfAll ss = ss.flatMap Stmt.tokens := by
  induction ss with
  | nil => rfl
  | cons s ss ih => rw [Stmt.tokensOfAll, ih, List.flatMap_cons]

theorem LikeExpr.tokens {e : Expr ι} {e' : Expr κ}
    (h : LikeExpr T U e e') : List.Forall₂ T e.tokens e'.tokens := by
  induction h with
  | literal | alien => exact .nil
  | grouping _ ih => exact ih
  | unary operator _ ih => exact .cons operator ih
  | binary _ operator _ ih ih' | logical _ operator _ ih ih' =>
    exact List.rel_append ih (.cons operator ih')
  | «variable» name _ => exact .cons name .nil
  | assign name _ _ ih => exact .cons name ih
  | call _ paren count _ ih ih' =>
    rw [Expr.tokens, Expr.tokens, Expr.tokensOfAll_eq, Expr.tokensOfAll_eq]
    refine List.rel_append ih (.cons paren ?_)
    exact List.rel_flatMap (forall₂_of_getElem? count ih') fun _ _ h => h

theorem LikeStmt.tokens {s : Stmt ι} {s' : Stmt κ}
    (h : LikeStmt T U s s') : List.Forall₂ T s.tokens s'.tokens := by
  have hall : ∀ {ss : List (Stmt ι)} {ss' : List (Stmt κ)}, ss.length = ss'.length →
      (∀ (i : Nat) s s', ss[i]? = some s → ss'[i]? = some s' →
        List.Forall₂ T s.tokens s'.tokens) →
      List.Forall₂ T (Stmt.tokensOfAll ss) (Stmt.tokensOfAll ss') := by
    intro ss ss' hcount hbody
    rw [Stmt.tokensOfAll_eq, Stmt.tokensOfAll_eq]
    exact List.rel_flatMap (forall₂_of_getElem? hcount hbody) fun _ _ h => h
  induction h with
  | expression value | print value => exact value.tokens
  | plainVar name => exact .cons name .nil
  | var name value => exact .cons name value.tokens
  | block count _ ih => exact hall count ih
  | branch condition _ ih => exact List.rel_append (List.rel_append condition.tokens ih) .nil
  | branchElse condition _ _ ih ih' =>
    exact List.rel_append (List.rel_append condition.tokens ih) ih'
  | loop condition _ ih => exact List.rel_append condition.tokens ih
  | function name parameters count _ ih =>
    exact .cons name (List.rel_append parameters (hall count ih))
  | plainGiveBack keyword => exact .cons keyword .nil
  | giveBack keyword value => exact .cons keyword value.tokens
  | alien => exact .nil

/-- The marks at the first lines of statements alike are related. -/
theorem LikeStmt.firstLine (hT : Lookalike T) {s : Stmt ι} {s' : Stmt κ}
    (h : LikeStmt T U s s') :
    T (.endAt s.firstLine) (.endAt s'.firstLine) := by
  unfold Stmt.firstLine
  have htokens := h.tokens
  generalize s.tokens = ts at htokens
  generalize s'.tokens = ts' at htokens
  cases htokens with
  | nil => exact hT.nowhere
  | cons hhead _ => exact hT.ending hhead

/-! ## More tokens and more labels related -/

theorem LikeExpr.mono {e : Expr ι} {e' : Expr κ} (h : LikeExpr T U e e')
    (hT : ∀ t, ∀ t' ∈ e'.tokens, T t t' → T' t t')
    (hU : ∀ l l', U l l' → U' l l') : LikeExpr T' U' e e' := by
  induction h with
  | literal => exact .literal
  | grouping _ ih => exact .grouping (ih hT)
  | unary operator _ ih =>
    simp only [Expr.tokens, List.forall_mem_cons, forall_and] at hT
    exact .unary (hT.1 _ operator) (ih hT.2)
  | binary _ operator _ ih ih' =>
    simp only [Expr.tokens, List.forall_mem_append, List.forall_mem_cons, forall_and] at hT
    exact .binary (ih hT.1) (hT.2.1 _ operator) (ih' hT.2.2)
  | logical _ operator _ ih ih' =>
    simp only [Expr.tokens, List.forall_mem_append, List.forall_mem_cons, forall_and] at hT
    exact .logical (ih hT.1) (hT.2.1 _ operator) (ih' hT.2.2)
  | «variable» name label =>
    exact .variable (hT _ _ List.mem_cons_self name) (hU _ _ label)
  | assign name _ label ih =>
    simp only [Expr.tokens, List.forall_mem_cons, forall_and] at hT
    exact .assign (hT.1 _ name) (ih hT.2) (hU _ _ label)
  | call _ paren count _ ih ih' =>
    simp only [Expr.tokens, Expr.tokensOfAll_eq, List.forall_mem_append, List.forall_mem_cons,
      List.forall_mem_flatMap, forall_and] at hT
    refine .call (ih hT.1) (hT.2.1 _ paren) count fun i a a' ha ha' => ?_
    exact ih' i a a' ha ha' fun t t' ht' => hT.2.2 t a' (List.mem_of_getElem? ha') t' ht'
  | alien => exact .alien

theorem LikeStmt.mono {s : Stmt ι} {s' : Stmt κ} (h : LikeStmt T U s s')
    (hT : ∀ t, ∀ t' ∈ s'.tokens, T t t' → T' t t') (hU : ∀ l l', U l l' → U' l l') :
    LikeStmt T' U' s s' := by
  induction h with
  | expression value => exact .expression (value.mono hT hU)
  | print value => exact .print (value.mono hT hU)
  | plainVar name => exact .plainVar (hT _ _ List.mem_cons_self name)
  | var name value =>
    exact .var (hT _ _ List.mem_cons_self name)
      (value.mono (fun t t' ht' => hT t t' (List.mem_cons_of_mem _ ht')) hU)
  | block count _ ih =>
    simp only [Stmt.tokens, Stmt.tokensOfAll_eq, List.forall_mem_flatMap] at hT
    refine .block count fun i s s' hs hs' => ?_
    exact ih i s s' hs hs' fun t t' ht' => hT t s' (List.mem_of_getElem? hs') t' ht'
  | branch condition _ ih =>
    simp only [Stmt.tokens, List.forall_mem_append, forall_and] at hT
    exact .branch (condition.mono hT.1.1 hU) (ih hT.1.2)
  | branchElse condition _ _ ih ih' =>
    simp only [Stmt.tokens, Stmt.tokensOfOption, List.forall_mem_append, forall_and] at hT
    exact .branchElse (condition.mono hT.1.1 hU) (ih hT.1.2) (ih' hT.2)
  | loop condition _ ih =>
    simp only [Stmt.tokens, List.forall_mem_append, forall_and] at hT
    exact .loop (condition.mono hT.1 hU) (ih hT.2)
  | function name parameters count _ ih =>
    simp only [Stmt.tokens, Stmt.tokensOfAll_eq, List.cons_append, List.forall_mem_append,
      List.forall_mem_cons, List.forall_mem_flatMap, forall_and] at hT
    obtain ⟨hname, hparameters, hbody⟩ := hT
    refine .function (hname _ name) ?_ count fun i s s' hs hs' => ?_
    · refine forall₂_of_getElem? parameters.length_eq fun i p p' hp hp' => ?_
      exact hparameters p p' (List.mem_of_getElem? hp') (getElem?_of_forall₂ parameters hp hp')
    · exact ih i s s' hs hs' fun t t' ht' => hbody t s' (List.mem_of_getElem? hs') t' ht'
  | plainGiveBack keyword => exact .plainGiveBack (hT _ _ List.mem_cons_self keyword)
  | giveBack keyword value =>
    exact .giveBack (hT _ _ List.mem_cons_self keyword)
      (value.mono (fun t t' ht' => hT t t' (List.mem_cons_of_mem _ ht')) hU)
  | alien => exact .alien

end Likeness

/-! ## Labels -/

/-- Labelled side by side, two trees get as many labels, and are alike if their labels are related
in turn. -/
def SideBySide {α : Type} (R : (UseId → UseId → Prop) → α → α → Prop) (m m' : StateM Nat α) :
    Prop :=
  ∀ n n', ∃ k a a', m.run n = (a, n + k) ∧ m'.run n' = (a', n' + k) ∧
    ∀ U : UseId → UseId → Prop, (∀ j < k, U (n + j) (n' + j)) → R U a a'

section Labels

variable {T : Token → Token → Prop} {V : Unit → Unit → Prop}

theorem sideBySide_pure {α : Type} {R : (UseId → UseId → Prop) → α → α → Prop} {a a' : α}
    (h : ∀ U, R U a a') : SideBySide R (pure a) (pure a') :=
  fun _ _ => ⟨0, a, a', rfl, rfl, fun U _ => h U⟩

theorem SideBySide.bind {α β : Type} {R : (UseId → UseId → Prop) → α → α → Prop}
    {Q : (UseId → UseId → Prop) → β → β → Prop} {m m' : StateM Nat α} {f f' : α → StateM Nat β}
    (h : SideBySide R m m')
    (hf : ∀ a a', SideBySide (fun U b b' => R U a a' → Q U b b') (f a) (f' a')) :
    SideBySide Q (m >>= f) (m' >>= f') := by
  intro n n'
  obtain ⟨k, a, a', hm, hm', ha⟩ := h n n'
  obtain ⟨j, b, b', hb, hb', hq⟩ := hf a a' (n + k) (n' + k)
  refine ⟨k + j, b, b', ?_, ?_, fun U hU => ?_⟩
  · rw [← Nat.add_assoc]
    exact run_bind_of hm hb
  · rw [← Nat.add_assoc]
    exact run_bind_of hm' hb'
  · refine hq U (fun i hi => ?_) (ha U fun i hi => hU i (by omega))
    have := hU (k + i) (by omega)
    rwa [← Nat.add_assoc, ← Nat.add_assoc] at this

theorem sideBySide_freshLabel : SideBySide (fun U l l' => U l l') freshLabel freshLabel :=
  fun n n' => ⟨1, n, n', rfl, rfl, fun _ hU => hU 0 Nat.one_pos⟩

theorem SideBySide.some {α : Type} {R : (UseId → UseId → Prop) → α → α → Prop}
    {m m' : StateM Nat α} (h : SideBySide R m m') :
    SideBySide (fun U => Option.Rel (R U)) (do return some (← m)) (do return some (← m')) :=
  h.bind fun _ _ => sideBySide_pure fun _ h => .some h

theorem sideBySide_exprs {es es' : List RawExpr}
    (h : List.Forall₂ (fun e e' => SideBySide (fun U => LikeExpr T U) e.label e'.label) es es') :
    SideBySide (fun U => List.Forall₂ (LikeExpr T U)) (Expr.labelAll es) (Expr.labelAll es') := by
  induction h with
  | nil => exact sideBySide_pure fun _ => .nil
  | cons h _ ih =>
    exact h.bind fun _ _ => ih.bind fun _ _ =>
      sideBySide_pure fun _ hrest hfirst => .cons hfirst hrest

/-- Labelling keeps the likeness of expressions. -/
theorem LikeExpr.label {e e' : RawExpr} (h : LikeExpr T V e e') :
    SideBySide (fun U => LikeExpr T U) e.label e'.label := by
  induction h with
  | literal => exact sideBySide_pure fun _ => .literal
  | grouping _ ih => exact ih.bind fun _ _ => sideBySide_pure fun _ h => .grouping h
  | unary operator _ ih => exact ih.bind fun _ _ => sideBySide_pure fun _ h => .unary operator h
  | binary _ operator _ ih ih' =>
    exact ih.bind fun _ _ => ih'.bind fun _ _ =>
      sideBySide_pure fun _ h' h => .binary h operator h'
  | logical _ operator _ ih ih' =>
    exact ih.bind fun _ _ => ih'.bind fun _ _ =>
      sideBySide_pure fun _ h' h => .logical h operator h'
  | «variable» name _ =>
    exact sideBySide_freshLabel.bind fun _ _ => sideBySide_pure fun _ h => .variable name h
  | assign name _ _ ih =>
    exact sideBySide_freshLabel.bind fun _ _ => ih.bind fun _ _ =>
      sideBySide_pure fun _ h' h => .assign name h' h
  | call _ paren count _ ih ih' =>
    exact ih.bind fun _ _ => (sideBySide_exprs (forall₂_of_getElem? count ih')).bind fun _ _ =>
      sideBySide_pure fun _ h' h => .called h paren h'
  | alien => exact sideBySide_pure fun _ => .alien

theorem sideBySide_stmts {ss ss' : List RawStmt}
    (h : List.Forall₂ (fun s s' => SideBySide (fun U => LikeStmt T U) s.label s'.label) ss ss') :
    SideBySide (fun U => List.Forall₂ (LikeStmt T U)) (Stmt.labelAll ss) (Stmt.labelAll ss') := by
  induction h with
  | nil => exact sideBySide_pure fun _ => .nil
  | cons h _ ih =>
    exact h.bind fun _ _ => ih.bind fun _ _ =>
      sideBySide_pure fun _ hrest hfirst => .cons hfirst hrest

/-- Labelling keeps the likeness of statements. -/
theorem LikeStmt.label {s s' : RawStmt} (h : LikeStmt T V s s') :
    SideBySide (fun U => LikeStmt T U) s.label s'.label := by
  induction h with
  | expression value =>
    exact value.label.bind fun _ _ => sideBySide_pure fun _ h => .expression h
  | print value => exact value.label.bind fun _ _ => sideBySide_pure fun _ h => .print h
  | plainVar name => exact sideBySide_pure fun _ => .plainVar name
  | var name value =>
    refine value.label.some.bind fun o o' => sideBySide_pure fun _ h => ?_
    cases h with
    | some h => exact .var name h
    | none => exact .plainVar name
  | block count _ ih =>
    exact (sideBySide_stmts (forall₂_of_getElem? count ih)).bind fun _ _ =>
      sideBySide_pure fun _ h => .braced h
  | branch condition _ ih =>
    exact condition.label.bind fun _ _ => ih.bind fun _ _ =>
      sideBySide_pure fun _ h' h => .branch h h'
  | branchElse condition _ _ ih ih' =>
    refine condition.label.bind fun _ _ => ih.bind fun _ _ => ih'.some.bind fun o o' =>
      sideBySide_pure fun _ h'' h' h => ?_
    cases h'' with
    | some h'' => exact .branchElse h h' h''
    | none => exact .branch h h'
  | loop condition _ ih =>
    exact condition.label.bind fun _ _ => ih.bind fun _ _ =>
      sideBySide_pure fun _ h' h => .loop h h'
  | function name parameters count _ ih =>
    exact (sideBySide_stmts (forall₂_of_getElem? count ih)).bind fun _ _ =>
      sideBySide_pure fun _ h => .declared name parameters h
  | plainGiveBack keyword => exact sideBySide_pure fun _ => .plainGiveBack keyword
  | giveBack keyword value =>
    refine value.label.some.bind fun o o' => sideBySide_pure fun _ h => ?_
    cases h with
    | some h => exact .giveBack keyword h
    | none => exact .plainGiveBack keyword
  | alien => exact sideBySide_pure fun _ => .alien

end Labels

end Scriptling
