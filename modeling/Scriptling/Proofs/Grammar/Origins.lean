-- Where a program comes from. What the parser builds has every shape that trees take over from
-- their parts, also where it recovers on the way: it holds tokens of its source only, and it is
-- regular. What it complains about is a token of its source as well.
import Scriptling.Proofs.Grammar.Composition
import Scriptling.Proofs.Scope.Likeness

namespace Scriptling

/-! ## The tokens of trees -/

section Trees

variable {ι : Type} {S : Token → Prop}

/-- All tokens that an expression keeps satisfy `S`. -/
def Expr.Keeps (S : Token → Prop) (e : Expr ι) : Prop := ∀ t ∈ e.tokens, S t

def Stmt.Keeps (S : Token → Prop) (s : Stmt ι) : Prop := ∀ t ∈ s.tokens, S t

theorem Expr.keeps_option {o : Option (Expr ι)} :
    (∀ t ∈ Expr.tokensOfOption o, S t) ↔ ∀ e ∈ o, e.Keeps S := by
  cases o <;> simp [Expr.tokensOfOption, Expr.Keeps]

theorem Expr.keeps_all {es : List (Expr ι)} :
    (∀ t ∈ Expr.tokensOfAll es, S t) ↔ ∀ e ∈ es, e.Keeps S := by
  rw [Expr.tokensOfAll_eq, List.forall_mem_flatMap]
  rfl

theorem Stmt.keeps_option {o : Option (Stmt ι)} :
    (∀ t ∈ Stmt.tokensOfOption o, S t) ↔ ∀ s ∈ o, s.Keeps S := by
  cases o <;> simp [Stmt.tokensOfOption, Stmt.Keeps]

theorem Stmt.keeps_all {ss : List (Stmt ι)} :
    (∀ t ∈ Stmt.tokensOfAll ss, S t) ↔ ∀ s ∈ ss, s.Keeps S := by
  rw [Stmt.tokensOfAll_eq, List.forall_mem_flatMap]
  rfl

theorem keepsShape : Grammar.Shape S (Expr.Keeps S) (Stmt.Keeps S) (Stmt.Keeps S) where
  literal _ := List.forall_mem_nil _
  grouping h := h
  unary hoperator _ h := List.forall_mem_cons.2 ⟨hoperator, h⟩
  binary hoperator _ h h' :=
    List.forall_mem_append.2 ⟨h, List.forall_mem_cons.2 ⟨hoperator, h'⟩⟩
  logical hoperator h h' := List.forall_mem_append.2 ⟨h, List.forall_mem_cons.2 ⟨hoperator, h'⟩⟩
  use h := List.forall_mem_singleton.2 h
  assign hname h := List.forall_mem_cons.2 ⟨hname _ List.mem_cons_self, h⟩
  call hparen h hes :=
    List.forall_mem_append.2 ⟨h, List.forall_mem_cons.2 ⟨hparen, Expr.keeps_all.2 hes⟩⟩
  expression h := h
  print h := h
  block := Stmt.keeps_all.2
  branch h hyes hno :=
    List.forall_mem_append.2 ⟨List.forall_mem_append.2 ⟨h, hyes⟩, Stmt.keeps_option.2 hno⟩
  loop h hbody := List.forall_mem_append.2 ⟨h, hbody⟩
  giveBack hkeyword h := List.forall_mem_cons.2 ⟨hkeyword, Expr.keeps_option.2 h⟩
  var hname h := List.forall_mem_cons.2 ⟨hname, Expr.keeps_option.2 h⟩
  function hname hnames h := List.forall_mem_cons.2
    ⟨hname, List.forall_mem_append.2 ⟨hnames, Stmt.keeps_all.2 h⟩⟩
  statement h := h

end Trees

/-! ## Parsers that keep to their tokens -/

/-- What a parser leaves behind holds tokens only that satisfy `S`, and a result that satisfies
`R`. -/
structure Parsed.Within {α : Type} (S : Token → Prop) (R : α → Prop) (parsed : Parsed α) :
    Prop where
  rest : ∀ t ∈ parsed.rest, S t
  complaints : ∀ c ∈ parsed.complaints, ∀ t ∈ c.token?, S t
  result : ∀ a, parsed.outcome = .ok a → R a

namespace Parser

variable {α β : Type}

/-- Where all tokens satisfy `S`, the parser leaves behind no others. -/
def Among (S : Token → Prop) (R : α → Prop) (p : Parser α) : Prop :=
  ∀ ts, (∀ t ∈ ts, S t) → (p ts).Within S R

section Laws

variable {S : Token → Prop} {R : α → Prop} {Q : β → Prop} {p : Parser α}

theorem among_pure {a : α} (h : R a) : Among S R (pure a) := by
  intro ts hts
  refine ⟨hts, List.forall_mem_nil _, ?_⟩
  rintro b ⟨⟩
  exact h

theorem Among.bind {f : α → Parser β} (hp : Among S R p) (hf : ∀ a, R a → Among S Q (f a)) :
    Among S Q (p >>= f) := by
  intro ts hts
  have hfirst := hp ts hts
  rcases h : p ts with ⟨u | a, mid, complaints⟩ <;> rw [h] at hfirst
  · rw [bind_of_error h]
    exact ⟨hfirst.rest, hfirst.complaints, nofun⟩
  · rw [bind_of_ok h]
    have hnext := hf a (hfirst.result a rfl) mid hfirst.rest
    exact ⟨hnext.rest, List.forall_mem_append.2 ⟨hfirst.complaints, hnext.complaints⟩,
      hnext.result⟩

theorem Among.map {f : α → β} (hp : Among S R p) (hf : ∀ a, R a → Q (f a)) :
    Among S Q (f <$> p) := hp.bind fun a ha => among_pure (hf a ha)

theorem Among.some (hp : Among S R p) : Among S (fun o => ∀ a ∈ o, R a) (some <$> p) :=
  hp.map fun _ ha _ hb => Option.some.inj hb ▸ ha

theorem among_tooDeep : Among S R (tooDeep : Parser α) :=
  fun _ hts => ⟨hts, List.forall_mem_nil _, nofun⟩

/-- A complaint about the next token is about one of them. -/
theorem forall_mem_head? {ts : List Token} (hts : ∀ t ∈ ts, S t) : ∀ t ∈ ts.head?, S t :=
  fun t ht => hts t (List.mem_of_mem_head? ht)

theorem among_refuse (problem : Problem) : Among S R (refuse problem : Parser α) :=
  fun _ hts => ⟨hts, List.forall_mem_singleton.2 (forall_mem_head? hts), nofun⟩

theorem among_complain (problem : Problem) : Among S (fun _ => True) (complain problem) :=
  fun _ hts => ⟨hts, List.forall_mem_singleton.2 (forall_mem_head? hts), fun _ _ => trivial⟩

theorem among_complainAt {t : Token} (ht : S t) (problem : Problem) :
    Among S (fun _ => True) (complainAt t problem) := by
  intro ts hts
  refine ⟨hts, List.forall_mem_singleton.2 ?_, fun _ _ => trivial⟩
  rintro u ⟨⟩
  exact ht

theorem among_check (k : Kind) : Among S (fun _ => True) (check k) :=
  fun _ hts => ⟨hts, List.forall_mem_nil _, fun _ _ => trivial⟩

theorem among_peek : Among S (fun _ => True) peek? :=
  fun _ hts => ⟨hts, List.forall_mem_nil _, fun _ _ => trivial⟩

theorem among_acceptIf (q : Kind → Bool) :
    Among S (fun o => ∀ t ∈ o, S t ∧ q t.kind = true) (acceptIf q) := by
  intro ts hts
  cases ts with
  | nil =>
    refine ⟨hts, List.forall_mem_nil _, ?_⟩
    rintro o ⟨⟩
    simp
  | cons t us =>
    obtain ⟨ht, hus⟩ := List.forall_mem_cons.1 hts
    by_cases hq : q t.kind = true
    · simp only [acceptIf, hq, if_true]
      refine ⟨hus, List.forall_mem_nil _, ?_⟩
      rintro o ⟨⟩ u ⟨⟩
      exact ⟨ht, hq⟩
    · simp only [acceptIf, hq]
      refine ⟨hts, List.forall_mem_nil _, ?_⟩
      rintro o ⟨⟩
      simp

theorem among_accept (k : Kind) : Among S (fun o => ∀ t ∈ o, S t) (accept k) :=
  fun ts hts =>
    have h := among_acceptIf (· == k) ts hts
    ⟨h.rest, h.complaints, fun o ho t ht => (h.result o ho t ht).1⟩

theorem among_expect (k : Kind) (problem : Problem) : Among S S (expect k problem) := by
  refine (among_accept k).bind fun o ho => ?_
  cases o with
  | none => exact among_refuse problem
  | some t => exact among_pure (ho t rfl)

theorem among_iterate {step : α → Parser (Option α)}
    (h : ∀ a, R a → Among S (fun o => ∀ b ∈ o, R b) (step a)) (n : Nat) {a : α} (ha : R a) :
    Among S R (iterate step n a) := by
  induction n generalizing a with
  | zero => exact among_pure ha
  | succ n ih =>
    refine (h a ha).bind fun o ho => ?_
    cases o with
    | none => exact among_pure ha
    | some b => exact ih (ho b rfl)

theorem among_many {step : Parser (Option α)} (h : Among S (fun o => ∀ a ∈ o, R a) step)
    (n : Nat) : Among S (fun as => ∀ a ∈ as, R a) (many step n) := by
  induction n with
  | zero => exact among_pure (List.forall_mem_nil _)
  | succ n ih =>
    refine h.bind fun o ho => ?_
    cases o with
    | none => exact among_pure (List.forall_mem_nil _)
    | some a =>
      exact ih.bind fun as has => among_pure (List.forall_mem_cons.2 ⟨ho a rfl, has⟩)

theorem among_moreItems (h : Among S R p) (problem : Problem) (n count : Nat) :
    Among S (fun as => ∀ a ∈ as, R a) (moreItems p problem n count) := by
  induction n generalizing count with
  | zero => exact among_pure (List.forall_mem_nil _)
  | succ n ih =>
    refine (among_accept .comma).bind fun o _ => ?_
    cases o with
    | none => exact among_pure (List.forall_mem_nil _)
    | some comma =>
      have hitems : Among S (fun as => ∀ a ∈ as, R a) (do
          let a ← p
          let rest ← moreItems p problem n (count + 1)
          return a :: rest) :=
        h.bind fun a ha => (ih (count + 1)).bind fun as has =>
          among_pure (List.forall_mem_cons.2 ⟨ha, has⟩)
      dsimp only
      split
      · exact (among_complain problem).bind fun _ _ => hitems
      · exact hitems

theorem among_commaSeparated (h : Among S R p) (size : Nat) (problem : Problem) :
    Among S (fun as => ∀ a ∈ as, R a) (commaSeparated size p problem) :=
  h.bind fun _ ha => (among_moreItems h problem size 1).bind fun _ has =>
    among_pure (List.forall_mem_cons.2 ⟨ha, has⟩)

theorem Among.recovering (h : Among S R p) :
    Among S (fun o => ∀ a ∈ o, R a) (recovering p) := by
  intro ts hts
  have hp := h ts hts
  rcases heq : p ts with ⟨(_ | _) | a, rest, complaints⟩ <;> rw [heq] at hp
  · rw [recovering_of_malformed heq]
    refine ⟨fun t ht => hp.rest t ((synchronize_suffix rest).subset ht), hp.complaints, ?_⟩
    rintro o ⟨⟩
    simp
  · rw [recovering_of_tooDeep heq]
    exact ⟨hp.rest, hp.complaints, nofun⟩
  · rw [recovering_of_ok heq]
    refine ⟨hp.rest, hp.complaints, ?_⟩
    rintro o ⟨⟩ b ⟨⟩
    exact hp.result a rfl

end Laws

section Shaped

variable {S : Token → Prop} {E : RawExpr → Prop} {T D : RawStmt → Prop}
  (shape : Grammar.Shape S E T D)

include shape

/-! ## Expressions -/

section Expressions

variable {size : Nat}

/-- A node joins two operands. -/
theorem shaped_join : ∀ rung ∈ rungs, ∀ {left right : RawExpr} {operator : Token}, E left →
    S operator → operator.kind ∈ rung.operators → E right →
      E (rung.join left operator right) := by
  have hbinary : ∀ {left right : RawExpr} {operator : Token}, ∀ rung ∈ rungs.drop 2, E left →
      S operator → operator.kind ∈ rung.operators → E right →
        E (.binary left operator right) := by
    intro left right operator rung hrung hleft hoperator hkind hright
    refine shape.binary hoperator ?_ hleft hright
    revert hkind
    generalize operator.kind = k
    revert k rung
    decide
  intro rung hrung left right operator hleft hoperator hkind hright
  simp only [rungs, List.mem_cons, List.not_mem_nil, or_false] at hrung
  rcases hrung with rfl | rfl | rfl | rfl | rfl | rfl
  · exact shape.logical hoperator hleft hright
  · exact shape.logical hoperator hleft hright
  all_goals exact hbinary _ (by simp [rungs]) hleft hoperator hkind hright

theorem among_ladder {operand : Parser RawExpr} (h : Among S E operand) :
    Among S E (ladder size operand) := by
  have hjoin := shaped_join shape
  unfold ladder
  revert hjoin
  induction rungs with
  | nil => exact fun _ => h
  | cons rung rest ih =>
    intro hjoin
    obtain ⟨hrung, hrest⟩ := List.forall_mem_cons.1 hjoin
    have hoperand := ih hrest
    refine hoperand.bind fun first hfirst => among_iterate (fun left hleft => ?_) size hfirst
    refine (among_acceptIf _).bind fun o ho => ?_
    cases o with
    | none => exact among_pure (by simp)
    | some operator =>
      obtain ⟨hoperator, hkind⟩ := ho operator rfl
      refine hoperand.bind fun right hright => among_pure ?_
      rintro e ⟨⟩
      exact hrung hleft hoperator (List.contains_iff_mem.1 hkind) hright

theorem among_primary {nested : Parser RawExpr} (h : Among S E nested) :
    Among S E (primary nested) := by
  have hgrouping : Among S E (grouping nested) :=
    h.bind fun _ hinner => (among_expect _ _).bind fun _ _ => among_pure (shape.grouping hinner)
  intro ts hts
  cases ts with
  | nil => exact among_refuse _ [] hts
  | cons t us =>
    obtain ⟨ht, hus⟩ := List.forall_mem_cons.1 hts
    have hleaf : ∀ v : Value, v.callable? = none →
        (Parser.pure (.literal v) us : Parsed RawExpr).Within S E :=
      fun v hv => among_pure (shape.literal hv) us hus
    unfold primary
    dsimp only
    split
    case h_6 => exact among_pure (shape.use ht) us hus
    case h_7 => exact hgrouping us hus
    case h_8 => exact among_refuse _ _ hts
    case h_4 | h_5 => exact hleaf _ (Grammar.callable?_value t)
    all_goals exact hleaf _ rfl

theorem among_call {nested : Parser RawExpr} (h : Among S E nested) :
    Among S E (call size nested) := by
  refine (among_primary shape h).bind fun term hterm =>
    among_iterate (fun callee hcallee => ?_) size hterm
  refine (among_accept _).bind fun o _ => ?_
  cases o with
  | none => exact among_pure (by simp)
  | some opening =>
    have hend : ∀ es : List RawExpr, (∀ e ∈ es, E e) → Among S E (do
        let paren ← expect .rightParen .parenAfterArguments
        return .call callee paren es) := fun es hes =>
      (among_expect _ _).bind fun paren hparen => among_pure (shape.call hparen hcallee hes)
    refine Among.some ((among_check _).bind fun b _ => ?_)
    cases b with
    | true => exact hend [] (List.forall_mem_nil _)
    | false => exact (among_commaSeparated h _ _).bind fun es hes => hend es hes

theorem among_expression_and_unary (size budget : Nat) :
    Among S E (expression size budget) ∧ Among S E (unary size budget) := by
  induction budget using Nat.strongRecOn with
  | _ budget ih =>
    refine ⟨?_, ?_⟩
    · obtain hlt | ⟨budget, rfl⟩ := lt_or_eq_add 12 budget
      · rw [expression_of_lt hlt]
        exact among_tooDeep
      rw [expression]
      refine (among_ladder shape (ih budget (by omega)).2).bind fun target htarget => ?_
      refine (among_accept _).bind fun o ho => ?_
      cases o with
      | none => exact among_pure htarget
      | some equals =>
        refine (ih (budget + 11) (by omega)).1.bind fun value hvalue => ?_
        split
        · exact among_pure (shape.assign htarget hvalue)
        · exact (among_complainAt (ho equals rfl) _).bind fun _ _ => among_pure htarget
    · obtain hlt | ⟨budget, rfl⟩ := lt_or_eq_add 3 budget
      · rw [unary_of_lt hlt]
        exact among_tooDeep
      rw [unary]
      refine (among_acceptIf _).bind fun o ho => ?_
      cases o with
      | none => exact among_call shape (ih budget (by omega)).1
      | some operator =>
        obtain ⟨hoperator, hkind⟩ := ho operator rfl
        refine (ih (budget + 2) (by omega)).2.bind fun right hright => among_pure ?_
        exact shape.unary hoperator (List.contains_iff_mem.1 hkind) hright

end Expressions

/-! ## Statements -/

section Statements

variable {expr : Parser RawExpr} {inner : Parser RawStmt}

omit shape in
/-- An expression that is left out where a token of the kind `k` comes. -/
theorem among_perhaps (h : Among S E expr) (k : Kind) {f : Option RawExpr → Parser RawStmt}
    (hf : ∀ o, (∀ e ∈ o, E e) → Among S T (f o)) :
    Among S T (check k >>= fun stop =>
      if stop = true then pure none >>= f else (some <$> expr) >>= f) := by
  refine (among_check k).bind fun stop _ => ?_
  cases stop with
  | true => exact hf none (by simp)
  | false => exact h.some.bind hf

theorem among_varDeclaration (h : Among S E expr) : Among S D (varDeclaration expr) := by
  refine (among_expect _ _).bind fun name hname => (among_accept _).bind fun equals _ => ?_
  have hend : ∀ o : Option RawExpr, (∀ e ∈ o, E e) → Among S D (do
      let _ ← expect .semicolon .semicolonAfterVariable
      return .var name o) := fun o ho =>
    (among_expect _ _).bind fun _ _ => among_pure (shape.var hname ho)
  cases equals with
  | none => exact hend none (by simp)
  | some equals => exact h.some.bind hend

theorem among_expressionStatement (h : Among S E expr) : Among S T (expressionStatement expr) :=
  h.bind fun _ he => (among_expect _ _).bind fun _ _ => among_pure (shape.expression he)

theorem among_printStatement (h : Among S E expr) : Among S T (printStatement expr) :=
  h.bind fun _ he => (among_expect _ _).bind fun _ _ => among_pure (shape.print he)

theorem among_returnStatement (h : Among S E expr) {keyword : Token} (hkeyword : S keyword) :
    Among S T (returnStatement expr keyword) :=
  among_perhaps h _ fun _ ho => (among_expect _ _).bind fun _ _ =>
    among_pure (shape.giveBack hkeyword ho)

theorem among_ifStatement (h : Among S E expr) (hinner : Among S T inner) :
    Among S T (ifStatement expr inner) := by
  refine (among_expect _ _).bind fun _ _ => h.bind fun e he =>
    (among_expect _ _).bind fun _ _ => hinner.bind fun yes hyes =>
    (among_accept _).bind fun word _ => ?_
  cases word with
  | none => exact among_pure (shape.branch he hyes (by simp))
  | some word => exact hinner.some.bind fun no hno => among_pure (shape.branch he hyes hno)

theorem among_whileStatement (h : Among S E expr) (hinner : Among S T inner) :
    Among S T (whileStatement expr inner) :=
  (among_expect _ _).bind fun _ _ => h.bind fun _ he => (among_expect _ _).bind fun _ _ =>
    hinner.bind fun _ hs => among_pure (shape.loop he hs)

theorem among_forStatement (h : Among S E expr) (hinner : Among S T inner) :
    Among S T (forStatement expr inner) := by
  -- the clauses behind the initializer
  have hclauses : ∀ i : Option RawStmt, (∀ s ∈ i, D s) → Among S T (do
      let condition ← if ← check .semicolon then pure none else some <$> expr
      let _ ← expect .semicolon .semicolonAfterLoopCondition
      let increment ← if ← check .rightParen then pure none else some <$> expr
      let _ ← expect .rightParen .parenAfterForClauses
      return forLoop i condition increment (← inner)) := by
    intro i hi
    refine among_perhaps h _ fun c hc => (among_expect _ _).bind fun _ _ =>
      among_perhaps h _ fun n hn => (among_expect _ _).bind fun _ _ =>
      hinner.bind fun s hs => among_pure ?_
    exact shape.forLoop hi hc hn hs
  refine (among_expect _ _).bind fun _ _ => (among_accept _).bind fun semicolon _ => ?_
  cases semicolon with
  | some semicolon => exact hclauses none (by simp)
  | none =>
    refine (among_accept _).bind fun word _ => ?_
    cases word with
    | some word => exact (among_varDeclaration shape h).some.bind hclauses
    | none =>
      exact (among_expressionStatement shape h).some.bind fun o ho =>
        hclauses o fun s hs => shape.statement (ho s hs)

omit shape in
theorem forall_mem_reduceOption {os : List (Option RawStmt)} (h : ∀ o ∈ os, ∀ s ∈ o, D s) :
    ∀ s ∈ os.reduceOption, D s :=
  fun s hs => h (some s) (List.reduceOption_mem_iff.1 hs) s rfl

omit shape in
theorem among_block (size : Nat) {inner : Parser (Option RawStmt)}
    (h : Among S (fun o => ∀ s ∈ o, D s) inner) :
    Among S (fun ss => ∀ s ∈ ss, D s) (block size inner) := by
  have hitem : Among S (fun oo => ∀ o ∈ oo, ∀ s ∈ o, D s) (blockItem inner) := by
    refine among_peek.bind fun o _ => ?_
    cases o with
    | none => exact among_pure (by simp)
    | some t =>
      dsimp only
      split
      · exact among_pure (by simp)
      · exact h.some
  exact (among_many hitem size).bind fun _ hos => (among_expect _ _).bind fun _ _ =>
    among_pure (forall_mem_reduceOption hos)

theorem among_function (size : Nat) {inner : Parser (Option RawStmt)}
    (h : Among S (fun o => ∀ s ∈ o, D s) inner) : Among S D (function size inner) := by
  refine (among_expect _ _).bind fun name hname => (among_expect _ _).bind fun _ _ => ?_
  have hbody : ∀ ps : List Token, (∀ t ∈ ps, S t) → Among S D (do
      let _ ← expect .rightParen .parenAfterParameters
      let _ ← expect .leftBrace .braceBeforeBody
      return .function name ps (← block size inner)) := by
    intro ps hps
    refine (among_expect _ _).bind fun _ _ => (among_expect _ _).bind fun _ _ =>
      (among_block size h).bind fun ss hss => among_pure ?_
    exact shape.function hname hps hss
  refine (among_check _).bind fun stop _ => ?_
  cases stop with
  | true => exact hbody [] (List.forall_mem_nil _)
  | false => exact (among_commaSeparated (among_expect _ _) _ _).bind hbody

end Statements

theorem among_statement_and_declaration (size budget : Nat) :
    Among S T (statement size budget) ∧
      Among S (fun o => ∀ s ∈ o, D s) (declaration size budget) := by
  induction budget using Nat.strongRecOn with
  | _ budget ih =>
    refine ⟨?_, ?_⟩
    · obtain hlt | ⟨budget, rfl⟩ := lt_or_eq_add 2 budget
      · rw [statement_of_lt hlt]
        exact among_tooDeep
      have hexpr := (among_expression_and_unary shape size budget).1
      obtain ⟨hinner, hdeclaration⟩ := ih budget (by omega)
      have hblock : Among S T (blockStatement size (declaration size budget)) :=
        (among_block size hdeclaration).bind fun _ hss => among_pure (shape.block hss)
      intro ts hts
      cases ts with
      | nil => exact among_expressionStatement shape hexpr [] hts
      | cons t us =>
        obtain ⟨ht, hus⟩ := List.forall_mem_cons.1 hts
        rw [statement_cons]
        split_ifs
        · exact among_forStatement shape hexpr hinner us hus
        · exact among_ifStatement shape hexpr hinner us hus
        · exact among_printStatement shape hexpr us hus
        · exact among_returnStatement shape hexpr ht us hus
        · exact among_whileStatement shape hexpr hinner us hus
        · exact hblock us hus
        · exact among_expressionStatement shape hexpr _ hts
    · obtain hlt | ⟨budget, rfl⟩ := lt_or_eq_add 3 budget
      · rw [declaration_of_lt hlt]
        exact among_tooDeep
      rw [declaration]
      refine Among.recovering ((among_accept _).bind fun word _ => ?_)
      cases word with
      | some word => exact among_function shape size (ih budget (by omega)).2
      | none =>
        refine (among_accept _).bind fun word _ => ?_
        cases word with
        | some word => exact among_varDeclaration shape (among_expression_and_unary shape size _).1
        | none =>
          intro ts hts
          have h := (ih (budget + 2) (by omega)).1 ts hts
          exact ⟨h.rest, h.complaints, fun s hs => shape.statement (h.result s hs)⟩

theorem among_topLevel (size budget : Nat) :
    Among S (fun o => ∀ s ∈ o, D s) (topLevel size budget) := by
  intro ts hts
  have hdeclaration := (among_statement_and_declaration shape size budget).2 ts hts
  rcases hd : declaration size budget ts with ⟨u | o, rest, complaints⟩ <;> rw [hd] at hdeclaration
  · rw [topLevel_of_error hd]
    refine ⟨fun t ht => hdeclaration.rest t ((synchronize_suffix rest).subset ht), ?_, ?_⟩
    · refine List.forall_mem_append.2 ⟨hdeclaration.complaints, List.forall_mem_singleton.2 ?_⟩
      exact forall_mem_head? hdeclaration.rest
    · rintro o ⟨⟩
      simp
  · rw [topLevel_of_ok hd]
    exact hdeclaration

/-- What is read has every shape that trees take over from their parts, and only tokens of the
source are complained about. -/
theorem parse_shaped (limit : Nat) {ts : List Token} (h : ∀ t ∈ ts, S t) :
    (∀ s ∈ (parse limit ts).statements, D s) ∧
      ∀ c ∈ (parse limit ts).complaints, ∀ t ∈ c.token?, S t := by
  have hitem : Among S (fun oo => ∀ o ∈ oo, ∀ s ∈ o, D s)
      (topItem (topLevel ts.length limit)) := by
    refine among_peek.bind fun o _ => ?_
    cases o with
    | none => exact among_pure (by simp)
    | some t => exact (among_topLevel shape _ _).some
  obtain ⟨os, complaints, hmany⟩ := many_topLevel ts.length limit (Nat.le_refl ts.length)
  have hwithin := among_many hitem ts.length ts h
  rw [hmany] at hwithin
  rw [parse_eq hmany]
  exact ⟨forall_mem_reduceOption (hwithin.result os rfl), hwithin.complaints⟩

end Shaped

/-- Whatever holds of all tokens of a source holds of those that its program keeps, and of those
that are complained about. -/
theorem parse_among {S : Token → Prop} (limit : Nat) {ts : List Token} (h : ∀ t ∈ ts, S t) :
    (∀ s ∈ (parse limit ts).statements, s.Keeps S) ∧
      ∀ c ∈ (parse limit ts).complaints, ∀ t ∈ c.token?, S t := parse_shaped keepsShape limit h

/-- What is read is regular, whatever was complained about. -/
theorem parse_recovered_regular (limit : Nat) (ts : List Token) :
    ∀ s ∈ (parse limit ts).statements, Grammar.RegularStmt s :=
  (parse_shaped Grammar.regularShape limit fun _ _ => trivial).1

end Parser

end Scriptling
