-- What a parser does, seen from outside. `Gives` says that it gives a result without a complaint,
-- and its laws take such a run apart. A parser that refuses its tokens is `Loud`: it has
-- complained.
import Scriptling.Grammar.Program

namespace Scriptling.Parser

variable {α β : Type}

/-! ## Results without a complaint -/

/-- The parser takes tokens up to `rest` and gives `a` without a complaint. -/
def Gives (p : Parser α) (ts : List Token) (a : α) (rest : List Token) : Prop :=
  p ts = ⟨.ok a, rest, []⟩

/-- The first token is of the kind `k`. -/
def StartsWith (k : Kind) (ts : List Token) : Prop := ∃ t rest, ts = t :: rest ∧ t.kind = k

theorem not_startsWith_nil (k : Kind) : ¬ StartsWith k [] := by
  rintro ⟨t, us, heq, -⟩
  cases heq

theorem not_startsWith_cons {k : Kind} {t : Token} (h : t.kind ≠ k) (rest : List Token) :
    ¬ StartsWith k (t :: rest) := by
  rintro ⟨u, us, heq, hu⟩
  cases heq
  exact h hu

theorem gives_pure {a b : α} {ts rest : List Token} :
    Gives (pure a) ts b rest ↔ b = a ∧ rest = ts := by
  constructor
  · intro h
    cases h
    exact ⟨rfl, rfl⟩
  · rintro ⟨rfl, rfl⟩
    rfl

theorem gives_bind {p : Parser α} {f : α → Parser β} {ts rest : List Token} {b : β} :
    Gives (p >>= f) ts b rest ↔ ∃ a mid, Gives p ts a mid ∧ Gives (f a) mid b rest := by
  have hbind : (p >>= f) ts = Parser.bind p f ts := rfl
  unfold Gives
  rw [hbind, Parser.bind]
  constructor
  · intro h
    split at h
    · rename_i a mid complaints hp
      simp only [Parsed.mk.injEq, List.append_eq_nil_iff] at h
      obtain ⟨h1, h2, h3, h4⟩ := h
      refine ⟨a, mid, by rw [hp, h3], ?_⟩
      rw [← h1, ← h2, ← h4]
    · simp at h
  · rintro ⟨a, mid, hp, hf⟩
    simp [hp, hf]

theorem gives_map {p : Parser α} {f : α → β} {ts rest : List Token} {b : β} :
    Gives (f <$> p) ts b rest ↔ ∃ a, Gives p ts a rest ∧ b = f a := by
  have hmap : f <$> p = p >>= fun a => pure (f a) := rfl
  rw [hmap, gives_bind]
  constructor
  · rintro ⟨a, mid, hp, hf⟩
    obtain ⟨rfl, rfl⟩ := gives_pure.1 hf
    exact ⟨a, hp, rfl⟩
  · rintro ⟨a, hp, rfl⟩
    exact ⟨a, rest, hp, rfl⟩

theorem gives_acceptIf {q : Kind → Bool} {ts rest : List Token} {o : Option Token} :
    Gives (acceptIf q) ts o rest ↔
      (∃ t, o = some t ∧ ts = t :: rest ∧ q t.kind = true) ∨
        (o = none ∧ rest = ts ∧ ∀ t ∈ ts.head?, q t.kind = false) := by
  unfold Gives
  cases ts with
  | nil =>
    simp [acceptIf]
    grind
  | cons t us =>
    by_cases h : q t.kind = true
    · simp [acceptIf, h]
      grind
    · simp [acceptIf, h]
      grind

theorem gives_accept {k : Kind} {ts rest : List Token} {o : Option Token} :
    Gives (accept k) ts o rest ↔
      (∃ t, o = some t ∧ ts = t :: rest ∧ t.kind = k) ∨
        (o = none ∧ rest = ts ∧ ¬ StartsWith k ts) := by
  unfold accept
  rw [gives_acceptIf]
  have hstart : (∀ t ∈ ts.head?, (t.kind == k) = false) ↔ ¬ StartsWith k ts := by
    cases ts <;> simp [StartsWith]
  simp only [beq_iff_eq, hstart]

theorem gives_expect {k : Kind} {problem : Problem} {ts rest : List Token} {t : Token} :
    Gives (expect k problem) ts t rest ↔ ts = t :: rest ∧ t.kind = k := by
  unfold expect
  rw [gives_bind]
  constructor
  · rintro ⟨o, mid, ho, hf⟩
    obtain ⟨u, rfl, rfl, hk⟩ | ⟨rfl, rfl, -⟩ := gives_accept.1 ho
    · obtain ⟨rfl, rfl⟩ := gives_pure.1 hf
      exact ⟨rfl, hk⟩
    · cases hf
  · rintro ⟨rfl, hk⟩
    exact ⟨some t, rest, gives_accept.2 (Or.inl ⟨t, rfl, rfl, hk⟩), rfl⟩

theorem gives_check {k : Kind} {ts rest : List Token} {b : Bool} :
    Gives (check k) ts b rest ↔ rest = ts ∧ (b = true ↔ StartsWith k ts) := by
  unfold Gives check
  have hstart : (ts.head?.any (·.kind == k) = true) ↔ StartsWith k ts := by
    cases ts <;> simp [StartsWith]
  simp only [Parsed.mk.injEq, Except.ok.injEq, and_true]
  rw [← hstart, and_comm, eq_comm (a := rest)]
  refine and_congr_right fun _ => ?_
  cases b <;> cases ts.head?.any (·.kind == k) <;> simp

theorem not_gives_refuse {problem : Problem} {ts rest : List Token} {a : α} :
    ¬ Gives (refuse problem) ts a rest := by
  intro h
  cases h

theorem not_gives_tooDeep {ts rest : List Token} {a : α} : ¬ Gives tooDeep ts a rest := by
  intro h
  cases h

/-- A loop gives a result only through its steps. -/
theorem gives_iterate {step : α → Parser (Option α)} {P : List Token → α → Prop}
    {whole : List Token}
    (hstep : ∀ used a mid b rest, P used a → Gives (step a) mid (some b) rest →
      whole = used ++ mid → ∃ used', whole = used' ++ rest ∧ P used' b)
    (hnone : ∀ a mid rest, Gives (step a) mid none rest → rest = mid) {n : Nat}
    {used mid rest : List Token} {a b : α} (ha : P used a) (hwhole : whole = used ++ mid)
    (h : Gives (iterate step n a) mid b rest) : ∃ used', whole = used' ++ rest ∧ P used' b := by
  induction n generalizing used mid a with
  | zero =>
    obtain ⟨rfl, rfl⟩ := gives_pure.1 h
    exact ⟨used, hwhole, ha⟩
  | succ n ih =>
    obtain ⟨o, mid', ho, hrest⟩ := gives_bind.1 h
    cases o with
    | none =>
      obtain ⟨rfl, rfl⟩ := gives_pure.1 hrest
      rw [hnone _ _ _ ho]
      exact ⟨used, hwhole, ha⟩
    | some c =>
      obtain ⟨used', hwhole', hc⟩ := hstep _ _ _ _ _ ha ho hwhole
      exact ih hc hwhole' hrest

/-! ## Refusals -/

/-- The parser complains whenever it refuses its tokens. -/
def Loud (p : Parser α) : Prop := ∀ ts, (p ts).outcome = .error .malformed → (p ts).complaints ≠ []

theorem loud_pure (a : α) : Loud (pure a : Parser α) := by
  intro ts h
  cases h

theorem loud_refuse (problem : Problem) : Loud (refuse problem : Parser α) := by
  intro ts _ h
  cases h

theorem loud_tooDeep : Loud (tooDeep : Parser α) := by
  intro ts h
  cases h

theorem loud_complain (problem : Problem) : Loud (complain problem) := by
  intro ts h
  cases h

theorem loud_complainAt (t : Token) (problem : Problem) : Loud (complainAt t problem) := by
  intro ts h
  cases h

theorem loud_check (k : Kind) : Loud (check k) := by
  intro ts h
  cases h

theorem loud_peek : Loud peek? := by
  intro ts h
  cases h

theorem loud_acceptIf (q : Kind → Bool) : Loud (acceptIf q) := by
  intro ts h
  cases ts with
  | nil => cases h
  | cons t us => by_cases hq : q t.kind = true <;> simp [acceptIf, hq] at h

theorem loud_accept (k : Kind) : Loud (accept k) := loud_acceptIf _

theorem loud_bind {p : Parser α} {f : α → Parser β} (hp : Loud p) (hf : ∀ a, Loud (f a)) :
    Loud (p >>= f) := by
  intro ts
  have hbind : (p >>= f) ts = Parser.bind p f ts := rfl
  rw [hbind, Parser.bind]
  split
  · rename_i a mid complaints _
    intro h hnil
    exact hf a mid h (List.append_eq_nil_iff.1 hnil).2
  · rename_i u mid complaints heq
    intro h hnil
    have hloud := hp ts
    rw [heq] at hloud
    cases h
    exact hloud rfl hnil

theorem loud_map {p : Parser α} (f : α → β) (hp : Loud p) : Loud (f <$> p) :=
  loud_bind hp fun a => loud_pure (f a)

theorem loud_expect (k : Kind) (problem : Problem) : Loud (expect k problem) := by
  refine loud_bind (loud_accept k) fun o => ?_
  cases o with
  | none => exact loud_refuse problem
  | some t => exact loud_pure t

theorem loud_iterate {step : α → Parser (Option α)} (h : ∀ a, Loud (step a)) (n : Nat) (a : α) :
    Loud (iterate step n a) := by
  induction n generalizing a with
  | zero => exact loud_pure a
  | succ n ih =>
    refine loud_bind (h a) fun o => ?_
    cases o with
    | none => exact loud_pure a
    | some b => exact ih b

theorem loud_many {step : Parser (Option α)} (h : Loud step) (n : Nat) : Loud (many step n) := by
  induction n with
  | zero => exact loud_pure []
  | succ n ih =>
    refine loud_bind h fun o => ?_
    cases o with
    | none => exact loud_pure []
    | some a => exact loud_bind ih fun as => loud_pure (a :: as)

theorem loud_moreItems {item : Parser α} (h : Loud item) (problem : Problem) (n count : Nat) :
    Loud (moreItems item problem n count) := by
  induction n generalizing count with
  | zero => exact loud_pure []
  | succ n ih =>
    refine loud_bind (loud_accept .comma) fun o => ?_
    cases o with
    | none => exact loud_pure []
    | some comma =>
      have hrest : Loud (item >>= fun a => moreItems item problem n (count + 1) >>= fun as =>
          pure (a :: as)) := loud_bind h fun a => loud_bind (ih _) fun as => loud_pure (a :: as)
      dsimp only
      split
      · exact loud_bind (loud_complain problem) fun _ => hrest
      · exact hrest

theorem loud_commaSeparated {item : Parser α} (h : Loud item) (size : Nat) (problem : Problem) :
    Loud (commaSeparated size item problem) :=
  loud_bind h fun a => loud_bind (loud_moreItems h problem size 1) fun as => loud_pure (a :: as)

/-- A loud parser that recovers gives nothing without a complaint, unless it gives something. -/
theorem gives_recovering {p : Parser α} (h : Loud p) {ts rest : List Token} {o : Option α} :
    Gives (recovering p) ts o rest ↔ ∃ a, o = some a ∧ Gives p ts a rest := by
  unfold Gives recovering
  constructor
  · intro hgives
    split at hgives
    · rename_i a mid complaints heq
      simp only [Parsed.mk.injEq, Except.ok.injEq] at hgives
      obtain ⟨rfl, rfl, rfl⟩ := hgives
      exact ⟨a, rfl, heq⟩
    · rename_i mid complaints heq
      have hloud := h ts
      rw [heq] at hloud
      simp only [Parsed.mk.injEq] at hgives
      exact absurd hgives.2.2 (hloud rfl)
    · cases hgives
  · rintro ⟨a, rfl, hgives⟩
    simp [hgives]

/-! ## Budgets -/

theorem lt_or_eq_add (n m : Nat) : m < n ∨ ∃ k, m = k + n := by
  obtain h | h := Nat.lt_or_ge m n
  · exact Or.inl h
  · exact Or.inr ⟨m - n, by omega⟩

theorem expression_of_lt {size budget : Nat} (h : budget < 12) :
    expression size budget = tooDeep := by
  match budget, h with
  | 0, _ | 1, _ | 2, _ | 3, _ | 4, _ | 5, _ | 6, _ | 7, _ | 8, _ | 9, _ | 10, _ | 11, _ => rfl

theorem unary_of_lt {size budget : Nat} (h : budget < 3) : unary size budget = tooDeep := by
  match budget, h with
  | 0, _ | 1, _ | 2, _ => rfl

theorem declaration_of_lt {size budget : Nat} (h : budget < 3) :
    declaration size budget = tooDeep := by
  match budget, h with
  | 0, _ | 1, _ | 2, _ => rfl

theorem statement_of_lt {size budget : Nat} (h : budget < 2) :
    statement size budget = tooDeep := by
  match budget, h with
  | 0, _ | 1, _ => rfl

/-- How a statement is told by its first token. -/
theorem statement_cons (size budget : Nat) (t : Token) (rest : List Token) :
    statement size (budget + 2) (t :: rest) =
      if t.kind = .keyword .forWord then
        forStatement (expression size budget) (statement size budget) rest
      else if t.kind = .keyword .ifWord then
        ifStatement (expression size budget) (statement size budget) rest
      else if t.kind = .keyword .printWord then printStatement (expression size budget) rest
      else if t.kind = .keyword .returnWord then returnStatement (expression size budget) t rest
      else if t.kind = .keyword .whileWord then
        whileStatement (expression size budget) (statement size budget) rest
      else if t.kind = .leftBrace then blockStatement size (declaration size budget) rest
      else expressionStatement (expression size budget) (t :: rest) := by
  obtain ⟨k, lexeme, literal, line⟩ := t
  cases k with
  | keyword w => cases w <;> rfl
  | _ => rfl

/-! ## Expressions and statements are loud -/

theorem loud_ladder {size : Nat} {operand : Parser RawExpr} (h : Loud operand) :
    Loud (ladder size operand) := by
  unfold ladder
  induction rungs with
  | nil => exact h
  | cons rung rest ih =>
    refine loud_bind ih fun first => loud_iterate (fun left => ?_) size first
    refine loud_bind (loud_acceptIf _) fun o => ?_
    cases o with
    | none => exact loud_pure none
    | some operator => exact loud_bind ih fun right => loud_pure _

theorem loud_primary {nested : Parser RawExpr} (h : Loud nested) : Loud (primary nested) := by
  have hgrouping : Loud (grouping nested) :=
    loud_bind h fun _ => loud_bind (loud_expect _ _) fun _ => loud_pure _
  intro ts hmalformed
  cases ts with
  | nil => exact loud_refuse _ _ hmalformed
  | cons t us =>
    unfold primary at hmalformed ⊢
    dsimp only at hmalformed ⊢
    split at hmalformed
    case h_7 => simp_all [hgrouping us]
    case h_8 => exact loud_refuse _ _ hmalformed
    all_goals cases hmalformed

theorem loud_call {size : Nat} {nested : Parser RawExpr} (h : Loud nested) :
    Loud (call size nested) := by
  refine loud_bind (loud_primary h) fun term => loud_iterate (fun callee => ?_) size term
  refine loud_bind (loud_accept _) fun o => ?_
  cases o with
  | none => exact loud_pure none
  | some opening =>
    refine loud_bind (loud_bind (loud_check _) fun b => ?_) fun _ => loud_pure _
    cases b with
    | true =>
      exact loud_bind (loud_pure _) fun _ => loud_bind (loud_expect _ _) fun _ => loud_pure _
    | false =>
      refine loud_bind (loud_commaSeparated h _ _) fun _ => ?_
      exact loud_bind (loud_expect _ _) fun _ => loud_pure _

theorem loud_expression_and_unary (size budget : Nat) :
    Loud (expression size budget) ∧ Loud (unary size budget) := by
  induction budget using Nat.strongRecOn with
  | _ budget ih =>
    refine ⟨?_, ?_⟩
    · obtain hlt | ⟨budget, rfl⟩ := lt_or_eq_add 12 budget
      · rw [expression_of_lt hlt]
        exact loud_tooDeep
      · rw [expression]
        refine loud_bind (loud_ladder (ih budget (by omega)).2) fun target => ?_
        refine loud_bind (loud_accept _) fun o => ?_
        cases o with
        | none => exact loud_pure target
        | some equals =>
          refine loud_bind (ih (budget + 11) (by omega)).1 fun value => ?_
          split
          · exact loud_pure _
          · exact loud_bind (loud_complainAt _ _) fun _ => loud_pure _
    · obtain hlt | ⟨budget, rfl⟩ := lt_or_eq_add 3 budget
      · rw [unary_of_lt hlt]
        exact loud_tooDeep
      · rw [unary]
        refine loud_bind (loud_acceptIf _) fun o => ?_
        cases o with
        | none => exact loud_call (ih budget (by omega)).1
        | some operator => exact loud_bind (ih (budget + 2) (by omega)).2 fun _ => loud_pure _

theorem loud_expression (size budget : Nat) : Loud (expression size budget) :=
  (loud_expression_and_unary size budget).1

section Statements

variable {expr : Parser RawExpr} {inner : Parser RawStmt}

theorem loud_varDeclaration (h : Loud expr) : Loud (varDeclaration expr) := by
  refine loud_bind (loud_expect _ _) fun name => loud_bind (loud_accept _) fun o => ?_
  cases o with
  | none => exact loud_bind (loud_pure _) fun _ => loud_bind (loud_expect _ _) fun _ => loud_pure _
  | some equals =>
    refine loud_bind (loud_map _ h) fun _ => loud_bind (loud_expect _ _) fun _ => loud_pure _

theorem loud_expressionStatement (h : Loud expr) : Loud (expressionStatement expr) :=
  loud_bind h fun _ => loud_bind (loud_expect _ _) fun _ => loud_pure _

theorem loud_printStatement (h : Loud expr) : Loud (printStatement expr) :=
  loud_bind h fun _ => loud_bind (loud_expect _ _) fun _ => loud_pure _

theorem loud_returnStatement (h : Loud expr) (keyword : Token) :
    Loud (returnStatement expr keyword) := by
  refine loud_bind (loud_check _) fun b => ?_
  cases b with
  | true => exact loud_bind (loud_pure _) fun _ => loud_bind (loud_expect _ _) fun _ => loud_pure _
  | false =>
    exact loud_bind (loud_map _ h) fun _ => loud_bind (loud_expect _ _) fun _ => loud_pure _

theorem loud_ifStatement (h : Loud expr) (hinner : Loud inner) : Loud (ifStatement expr inner) := by
  refine loud_bind (loud_expect _ _) fun _ => loud_bind h fun condition => ?_
  refine loud_bind (loud_expect _ _) fun _ => loud_bind hinner fun yes => ?_
  refine loud_bind (loud_accept _) fun o => ?_
  cases o with
  | none => exact loud_bind (loud_pure _) fun _ => loud_pure _
  | some other => exact loud_bind (loud_map _ hinner) fun _ => loud_pure _

theorem loud_whileStatement (h : Loud expr) (hinner : Loud inner) :
    Loud (whileStatement expr inner) := by
  refine loud_bind (loud_expect _ _) fun _ => loud_bind h fun condition => ?_
  exact loud_bind (loud_expect _ _) fun _ => loud_bind hinner fun _ => loud_pure _

theorem loud_forStatement (h : Loud expr) (hinner : Loud inner) :
    Loud (forStatement expr inner) := by
  refine loud_bind (loud_expect _ _) fun _ => ?_
  -- the clauses behind the initializer
  have hclauses : ∀ initializer : Option RawStmt, Loud (do
      let condition ← if ← check .semicolon then pure none else some <$> expr
      let _ ← expect .semicolon .semicolonAfterLoopCondition
      let increment ← if ← check .rightParen then pure none else some <$> expr
      let _ ← expect .rightParen .parenAfterForClauses
      return forLoop initializer condition increment (← inner)) := by
    intro initializer
    have hbody : ∀ condition increment : Option RawExpr, Loud (do
        let _ ← expect .rightParen .parenAfterForClauses
        return forLoop initializer condition increment (← inner)) := fun condition increment =>
      loud_bind (loud_expect _ _) fun _ => loud_bind hinner fun _ => loud_pure _
    have hincrement : ∀ condition : Option RawExpr, Loud (do
        let _ ← expect .semicolon .semicolonAfterLoopCondition
        let increment ← if ← check .rightParen then pure none else some <$> expr
        let _ ← expect .rightParen .parenAfterForClauses
        return forLoop initializer condition increment (← inner)) := by
      intro condition
      refine loud_bind (loud_expect _ _) fun _ => loud_bind (loud_check _) fun b => ?_
      cases b with
      | true => exact loud_bind (loud_pure _) fun n => hbody condition n
      | false => exact loud_bind (loud_map _ h) fun n => hbody condition n
    refine loud_bind (loud_check _) fun b => ?_
    cases b with
    | true => exact loud_bind (loud_pure _) fun c => hincrement c
    | false => exact loud_bind (loud_map _ h) fun c => hincrement c
  refine loud_bind (loud_accept _) fun o => ?_
  cases o with
  | some semicolon => exact loud_bind (loud_pure _) fun i => hclauses i
  | none =>
    refine loud_bind (loud_accept _) fun o => ?_
    cases o with
    | some word => exact loud_bind (loud_map _ (loud_varDeclaration h)) fun i => hclauses i
    | none => exact loud_bind (loud_map _ (loud_expressionStatement h)) fun i => hclauses i

theorem loud_block {size : Nat} {inner : Parser (Option RawStmt)} (h : Loud inner) :
    Loud (block size inner) := by
  refine loud_bind (loud_many (loud_bind loud_peek fun o => ?_) size) fun body => ?_
  · cases o with
    | none => exact loud_pure none
    | some t =>
      dsimp only
      split
      · exact loud_pure none
      · exact loud_map _ h
  · exact loud_bind (loud_expect _ _) fun _ => loud_pure _

theorem loud_function {size : Nat} {inner : Parser (Option RawStmt)} (h : Loud inner) :
    Loud (function size inner) := by
  refine loud_bind (loud_expect _ _) fun name => loud_bind (loud_expect _ _) fun _ => ?_
  have hbody : ∀ parameters : List Token, Loud (do
      let _ ← expect .rightParen .parenAfterParameters
      let _ ← expect .leftBrace .braceBeforeBody
      return Stmt.function name parameters (← block size inner)) := fun parameters =>
    loud_bind (loud_expect _ _) fun _ => loud_bind (loud_expect _ _) fun _ =>
      loud_bind (loud_block h) fun _ => loud_pure _
  refine loud_bind (loud_check _) fun b => ?_
  cases b with
  | true => exact loud_bind (loud_pure _) fun ps => hbody ps
  | false => exact loud_bind (loud_commaSeparated (loud_expect _ _) _ _) fun ps => hbody ps

end Statements

theorem loud_recovering (p : Parser α) : Loud (recovering p) := by
  intro ts hmalformed
  unfold recovering at hmalformed
  split at hmalformed <;> cases hmalformed

theorem loud_declaration (size budget : Nat) : Loud (declaration size budget) := by
  obtain hlt | ⟨budget, rfl⟩ := lt_or_eq_add 3 budget
  · rw [declaration_of_lt hlt]
    exact loud_tooDeep
  · rw [declaration]
    exact loud_recovering _

theorem loud_statement (size budget : Nat) : Loud (statement size budget) := by
  induction budget using Nat.strongRecOn with
  | _ budget ih =>
    obtain hlt | ⟨budget, rfl⟩ := lt_or_eq_add 2 budget
    · rw [statement_of_lt hlt]
      exact loud_tooDeep
    · have hexpr := loud_expression size budget
      have hinner := ih budget (by omega)
      intro ts
      cases ts with
      | nil => exact loud_expressionStatement hexpr []
      | cons t us =>
        rw [statement_cons]
        split
        · exact loud_forStatement hexpr hinner us
        split
        · exact loud_ifStatement hexpr hinner us
        split
        · exact loud_printStatement hexpr us
        split
        · exact loud_returnStatement hexpr t us
        split
        · exact loud_whileStatement hexpr hinner us
        split
        · exact loud_bind (loud_block (loud_declaration size budget)) (fun _ => loud_pure _) us
        · exact loud_expressionStatement hexpr (t :: us)

/-- What a declaration does before it recovers. -/
theorem loud_declarationBody (size budget : Nat) : Loud (do
    match ← acceptWord .functionWord with
    | some _ => function size (declaration size budget)
    | none => match ← acceptWord .varWord with
      | some _ => varDeclaration (expression size (budget + 1))
      | none => statement size (budget + 2)) := by
  refine loud_bind (loud_accept _) fun o => ?_
  cases o with
  | some word => exact loud_function (loud_declaration size budget)
  | none =>
    refine loud_bind (loud_accept _) fun o => ?_
    cases o with
    | some word => exact loud_varDeclaration (loud_expression size (budget + 1))
    | none => exact loud_statement size (budget + 2)

end Scriptling.Parser
