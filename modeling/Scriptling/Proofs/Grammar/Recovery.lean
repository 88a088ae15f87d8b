-- Recovery is local. Where a declaration cannot be read, the tokens up to the next place where a
-- statement may start are dropped, and no more. So a declaration that recovers, in a block or at
-- the top level, goes on in front of other tokens as it goes on at the end of a source.
import Scriptling.Proofs.Grammar.Acceptance
import Scriptling.Proofs.Grammar.Lookahead

namespace Scriptling.Parser

variable {α : Type} {extra : List Token} {size size' : Nat}

/-! ## Expressions -/

section Expressions

variable (hsize : size + extra.length ≤ size')
include hsize

theorem overlooks_chain {rung : Rung} {operand operand' : Parser RawExpr}
    (h : Overlooks extra size 1 false operand operand') :
    Overlooks extra size 1 false (chain size rung operand) (chain size' rung operand') := by
  have hoperand := h.weaken (Nat.zero_le 1) id
  refine h.bind (overlooks_extending (fun _ => rfl) (fun _ => rfl) (fun left operator => ?_) hsize)
  exact hoperand.bind fun right => overlooks_pure _

theorem overlooks_ladder {operand operand' : Parser RawExpr}
    (h : Overlooks extra size 1 false operand operand') :
    Overlooks extra size 1 false (ladder size operand) (ladder size' operand') := by
  unfold ladder
  induction rungs with
  | nil => exact h
  | cons rung rest ih => exact overlooks_chain hsize ih

theorem overlooks_finishCall {nested nested' : Parser RawExpr}
    (h : Overlooks extra size 1 false nested nested') (callee : RawExpr) :
    Overlooks extra size 1 false (finishCall size nested callee)
      (finishCall size' nested' callee) := by
  have hclose : ∀ es : List RawExpr, Overlooks extra size 1 false
      (do
        let paren ← expect .rightParen .parenAfterArguments
        return Expr.call callee paren es)
      (do
        let paren ← expect .rightParen .parenAfterArguments
        return Expr.call callee paren es) := fun es =>
    (overlooks_expect _ _).bind fun paren => overlooks_pure _
  refine (overlooks_check _).bindBite fun b => ?_
  cases b with
  | true => exact hclose []
  | false => exact (overlooks_commaSeparated h _ hsize).bindBite hclose

omit hsize in
theorem overlooks_primary {nested nested' : Parser RawExpr}
    (h : Overlooks extra size 1 false nested nested') :
    Overlooks extra size 1 false (primary nested) (primary nested') := by
  refine overlooks_byHead (overlooks_refuse .expression) ⟨rfl, rfl⟩ ?_
  rintro ⟨kind, lexeme, literal, line⟩
  cases kind with
  | number | string | identifier =>
    exact Or.inl ⟨_, _, overlooks_pure _, fun _ => rfl, fun _ => rfl⟩
  | leftParen =>
    refine Or.inl ⟨grouping nested, grouping nested', ?_, fun _ => rfl, fun _ => rfl⟩
    refine (h.weaken (Nat.zero_le 1) id).bind fun e => ?_
    exact ((overlooks_expect _ _).bind fun _ => overlooks_pure _).weaken (Nat.zero_le 1) id
  | keyword word =>
    cases word with
    | falseWord | trueWord | nilWord =>
      exact Or.inl ⟨_, _, overlooks_pure _, fun _ => rfl, fun _ => rfl⟩
    | _ => exact Or.inr ⟨fun _ => rfl, fun _ => rfl⟩
  | _ => exact Or.inr ⟨fun _ => rfl, fun _ => rfl⟩

theorem overlooks_call {nested nested' : Parser RawExpr}
    (h : Overlooks extra size 1 false nested nested') :
    Overlooks extra size 1 false (call size nested) (call size' nested') := by
  refine (overlooks_primary h).bind
    (overlooks_extending (fun _ => rfl) (fun _ => rfl) (fun callee paren => ?_) hsize)
  have hfinish := (overlooks_finishCall hsize h callee).weaken (Nat.zero_le 1) id
  exact hfinish.bind fun e => overlooks_pure _

theorem overlooks_expression_and_unary (budget : Nat) :
    Overlooks extra size 1 false (expression size budget) (expression size' budget) ∧
      Overlooks extra size 1 false (unary size budget) (unary size' budget) := by
  induction budget using Nat.strongRecOn with
  | _ budget ih =>
    refine ⟨?_, ?_⟩
    · obtain hlt | ⟨budget, rfl⟩ := lt_or_eq_add 12 budget
      · rw [expression_of_lt hlt, expression_of_lt hlt]
        exact overlooks_tooDeep
      · rw [expression, expression]
        refine (overlooks_ladder hsize (ih budget (by omega)).2).bind fun target =>
          (overlooks_accept _).bind ?_
        rintro (_ | equals)
        · exact overlooks_pure target
        · have hvalue := (ih (budget + 11) (by omega)).1.weaken (Nat.zero_le 1) id
          refine hvalue.bind fun value => ?_
          cases target with
          | «variable» => exact overlooks_pure _
          | _ => exact (overlooks_complainAt _ _).bind fun _ => overlooks_pure _
    · obtain hlt | ⟨budget, rfl⟩ := lt_or_eq_add 3 budget
      · rw [unary_of_lt hlt, unary_of_lt hlt]
        exact overlooks_tooDeep
      · rw [unary, unary]
        refine (overlooks_acceptIf _).bindBite ?_
        rintro (_ | operator)
        · exact overlooks_call hsize (ih budget (by omega)).1
        · exact (ih (budget + 2) (by omega)).2.bind fun right => overlooks_pure _

theorem overlooks_expression (budget : Nat) :
    Overlooks extra size 1 false (expression size budget) (expression size' budget) :=
  (overlooks_expression_and_unary hsize budget).1

end Expressions

/-! ## Statements -/

section Statements

variable {expr expr' : Parser RawExpr} {inner inner' : Parser RawStmt}
  (h : Overlooks extra size 1 false expr expr')
include h

theorem overlooks_varDeclaration :
    Overlooks extra size 1 true (varDeclaration expr) (varDeclaration expr') := by
  refine (overlooks_expect _ _).bindBite fun name => ?_
  have hend : ∀ e : Option RawExpr, Overlooks extra size 1 true
      (do
        let _ ← expect .semicolon .semicolonAfterVariable
        return Stmt.var name e)
      (do
        let _ ← expect .semicolon .semicolonAfterVariable
        return Stmt.var name e) := fun e =>
    (overlooks_expect _ _).bindEnd fun _ => overlooks_pure _
  refine (overlooks_accept _).bindBite ?_
  rintro (_ | equals)
  · exact hend none
  · exact (h.map some).bindBite hend

theorem overlooks_expressionStatement :
    Overlooks extra size 1 true (expressionStatement expr) (expressionStatement expr') :=
  h.bindBite fun _ => (overlooks_expect _ _).bindEnd fun _ => overlooks_pure _

theorem overlooks_printStatement :
    Overlooks extra size 1 true (printStatement expr) (printStatement expr') :=
  h.bindBite fun _ => (overlooks_expect _ _).bindEnd fun _ => overlooks_pure _

/-- An expression that is left out where a token of the kind `k` comes. -/
theorem overlooks_perhaps (k : Kind) {f f' : Option RawExpr → Parser RawStmt}
    (hf : ∀ e, Overlooks extra size 1 true (f e) (f' e)) :
    Overlooks extra size 1 true
      (check k >>= fun stop => if stop = true then pure none >>= f else (some <$> expr) >>= f)
      (check k >>= fun stop =>
        if stop = true then pure none >>= f' else (some <$> expr') >>= f') := by
  refine (overlooks_check k).bindBite fun b => ?_
  cases b with
  | true => exact hf none
  | false => exact (h.map some).bindBite hf

theorem overlooks_returnStatement (keyword : Token) :
    Overlooks extra size 1 true (returnStatement expr keyword) (returnStatement expr' keyword) :=
  overlooks_perhaps h _ fun _ => (overlooks_expect _ _).bindEnd fun _ => overlooks_pure _

variable (hinner : Overlooks extra size 1 true inner inner')
include hinner

theorem overlooks_ifStatement (hextra : ¬ StartsWith (.keyword .elseWord) extra) :
    Overlooks extra size 1 true (ifStatement expr inner) (ifStatement expr' inner') := by
  refine (overlooks_expect _ _).bindBite fun _ => h.bindBite fun condition =>
    (overlooks_expect _ _).bindBite fun _ => hinner.bindEnd fun yes =>
    (overlooks_accept_atEnd hextra).bindEnd ?_
  rintro (_ | word)
  · exact overlooks_pure _
  · exact ((hinner.map some).weaken (Nat.zero_le 1) id).bindEnd fun no => overlooks_pure _

theorem overlooks_whileStatement :
    Overlooks extra size 1 true (whileStatement expr inner) (whileStatement expr' inner') :=
  (overlooks_expect _ _).bindBite fun _ => h.bindBite fun _ =>
    (overlooks_expect _ _).bindBite fun _ => hinner.bindEnd fun _ => overlooks_pure _

theorem overlooks_forStatement :
    Overlooks extra size 1 true (forStatement expr inner) (forStatement expr' inner') := by
  refine (overlooks_expect _ _).bindBite fun _ => ?_
  -- the clauses behind the initializer
  have hclauses : ∀ i : Option RawStmt, Overlooks extra size 1 true
      (do
        let condition ← if ← check .semicolon then pure none else some <$> expr
        let _ ← expect .semicolon .semicolonAfterLoopCondition
        let increment ← if ← check .rightParen then pure none else some <$> expr
        let _ ← expect .rightParen .parenAfterForClauses
        return forLoop i condition increment (← inner))
      (do
        let condition ← if ← check .semicolon then pure none else some <$> expr'
        let _ ← expect .semicolon .semicolonAfterLoopCondition
        let increment ← if ← check .rightParen then pure none else some <$> expr'
        let _ ← expect .rightParen .parenAfterForClauses
        return forLoop i condition increment (← inner')) := fun i =>
    overlooks_perhaps h _ fun c => (overlooks_expect _ _).bindBite fun _ =>
      overlooks_perhaps h _ fun n => (overlooks_expect _ _).bindBite fun _ =>
      hinner.bindEnd fun s => overlooks_pure _
  refine (overlooks_accept _).bindBite ?_
  rintro (_ | semicolon)
  · refine (overlooks_accept _).bindBite ?_
    rintro (_ | word)
    · exact ((overlooks_expressionStatement h).map some).bindBite hclauses
    · exact ((overlooks_varDeclaration h).map some).bindBite hclauses
  · exact hclauses none

end Statements

/-! ## Recovery -/

theorem skipAfter_suffix (last : Token) (ts : List Token) : skipAfter last ts <:+ ts := by
  induction ts generalizing last with
  | nil => exact List.suffix_refl _
  | cons t us ih =>
    rw [skipAfter]
    split
    · exact List.suffix_refl _
    · exact (ih t).trans (List.suffix_cons _ _)

theorem synchronize_suffix (ts : List Token) : synchronize ts <:+ ts := by
  cases ts with
  | nil => exact List.suffix_refl _
  | cons t us => exact (skipAfter_suffix t us).trans (List.suffix_cons _ _)

/-- Skipping gets on: it drops a token if there is one. -/
theorem synchronize_length_lt {ts : List Token} (h : ts ≠ []) :
    (synchronize ts).length < ts.length := by
  cases ts with
  | nil => exact absurd rfl h
  | cons t us => exact Nat.lt_succ_of_le (skipAfter_suffix t us).length_le

/-- The last token is a semicolon. -/
def EndsWithSemicolon (ts : List Token) : Prop := ts.getLast?.map Token.kind = some .semicolon

theorem EndsWithSemicolon.suffix {ts us : List Token} (h : EndsWithSemicolon ts) (hus : us <:+ ts)
    (hne : us ≠ []) : EndsWithSemicolon us := by
  obtain ⟨vs, rfl⟩ := hus
  obtain ⟨t, ht⟩ := Option.isSome_iff_exists.1 (List.getLast?_isSome.2 hne)
  unfold EndsWithSemicolon at h ⊢
  rw [List.getLast?_append, ht] at h
  rw [ht]
  exact h

/-- Skipping stops in what is there, or behind the semicolon with which it ends. -/
theorem skipAfter_append {last : Token} {ts : List Token}
    (h : skipAfter last ts ≠ [] ∨ extra = [] ∨ EndsWithSemicolon (last :: ts)) :
    skipAfter last (ts ++ extra) = skipAfter last ts ++ extra := by
  induction ts generalizing last with
  | nil =>
    cases extra with
    | nil => rfl
    | cons t us =>
      obtain hne | hnil | hend := h
      · exact absurd rfl hne
      · cases hnil
      · have hlast : last.kind = .semicolon := by simpa [EndsWithSemicolon] using hend
        exact if_pos (Or.inl hlast)
  | cons t us ih =>
    rw [List.cons_append, skipAfter, skipAfter]
    split
    · rfl
    · rename_i hgo
      rw [skipAfter, if_neg hgo] at h
      refine ih (h.imp_right (Or.imp_right fun hend => ?_))
      exact hend.suffix (List.suffix_cons _ _) (List.cons_ne_nil _ _)

theorem synchronize_append {ts : List Token}
    (h : synchronize ts ≠ [] ∨ extra = [] ∨ ts ≠ [] ∧ EndsWithSemicolon ts) :
    synchronize (ts ++ extra) = synchronize ts ++ extra := by
  cases ts with
  | nil =>
    obtain hne | rfl | ⟨hne, -⟩ := h
    · exact absurd rfl hne
    · rfl
    · exact absurd rfl hne
  | cons t us => exact skipAfter_append (h.imp_right (Or.imp_right And.right))

section Recovering

variable {p p' : Parser α} {ts rest : List Token} {complaints : List Complaint}

theorem recovering_of_ok {a : α} (h : p ts = ⟨.ok a, rest, complaints⟩) :
    recovering p ts = ⟨.ok (some a), rest, complaints⟩ := by
  rw [recovering, h]

theorem recovering_of_malformed (h : p ts = ⟨.error .malformed, rest, complaints⟩) :
    recovering p ts = ⟨.ok none, synchronize rest, complaints⟩ := by
  rw [recovering, h]

theorem recovering_of_tooDeep (h : p ts = ⟨.error .tooDeep, rest, complaints⟩) :
    recovering p ts = ⟨.error .tooDeep, rest, complaints⟩ := by
  rw [recovering, h]

/-- Unless it comes to no tokens at all, a result costs a token. -/
def Advances (p : Parser α) : Prop :=
  ∀ ts a, ts ≠ [] → (p ts).outcome = .ok a → (p ts).rest.length < ts.length

theorem advances_recovering (h : Overlooks extra size 1 true p p') : Advances (recovering p) := by
  intro ts o hne hok
  have hsuffix := (h.suffix ts).length_le
  have hbites := @h.bites ts
  rcases hp : p ts with ⟨(_ | _) | a, mid, complaints⟩ <;> rw [hp] at hsuffix hbites
  · rw [recovering_of_malformed hp]
    by_cases hmid : mid = []
    · rw [hmid]
      exact List.length_pos_iff.2 hne
    · exact Nat.lt_of_lt_of_le (synchronize_length_lt hmid) hsuffix
  · rw [recovering_of_tooDeep hp] at hok
    cases hok
  · rw [recovering_of_ok hp]
    exact hbites rfl

theorem recovering_suffix (h : Overlooks extra size 1 true p p') (ts : List Token) :
    (recovering p ts).rest <:+ ts := by
  have hsuffix := h.suffix ts
  rcases hp : p ts with ⟨(_ | _) | a, mid, complaints⟩ <;> rw [hp] at hsuffix
  · rw [recovering_of_malformed hp]
    exact (synchronize_suffix mid).trans hsuffix
  · rw [recovering_of_tooDeep hp]
    exact hsuffix
  · rw [recovering_of_ok hp]
    exact hsuffix

/-- A parser that recovers is no longer closed, since it may skip to the end. -/
theorem Overlooks.recovering (h : Overlooks extra size 1 true p p') :
    Overlooks extra size 0 false (recovering p) (recovering p') where
  suffix := recovering_suffix h
  bites _ := (recovering_suffix h _).length_le
  points {ts} herror := by
    unfold Parser.recovering at herror
    split at herror <;> cases herror
  follows {ts} hsize hsafe := by
    have hfollows := h.follows hsize
    have hsafe' := left_of_open hsafe
    rcases hp : p ts with ⟨(_ | _) | a, mid, complaints⟩ <;> rw [hp] at hfollows
    · rw [recovering_of_malformed hp] at hsafe' ⊢
      have hmid : mid ≠ [] ∨ extra = [] := by
        refine hsafe'.imp_left fun hne hmid => hne ?_
        subst hmid
        rfl
      rw [recovering_of_malformed (hfollows (hmid.imp_right Or.inl)),
        synchronize_append (hsafe'.imp_right Or.inl)]
      rfl
    · rw [recovering_of_tooDeep hp] at hsafe' ⊢
      exact recovering_of_tooDeep (hfollows (hsafe'.imp_right Or.inl))
    · rw [recovering_of_ok hp] at hsafe' ⊢
      exact recovering_of_ok (hfollows (hsafe'.imp_right Or.inl))

/-- Two parsers that recover from what two closed parsers cannot read. -/
def Recovers (extra : List Token) (size : Nat) (q q' : Parser (Option α)) : Prop :=
  ∃ p p', Overlooks extra size 1 true p p' ∧ q = recovering p ∧ q' = recovering p'

end Recovering

/-! ## Declarations -/

section Bodies

variable {inner inner' : Parser (Option RawStmt)} (hsize : size + extra.length ≤ size')
  (h : Recovers extra size inner inner')
include hsize h

omit hsize h in
theorem eats_blockItem (h : Advances inner) : Eats (blockItem inner) := by
  intro ts o hok
  cases ts with
  | nil => cases hok
  | cons t us =>
    rw [blockItem_cons] at hok ⊢
    split at hok
    · cases hok
    · rename_i hbrace
      rw [if_neg hbrace]
      rw [map_apply] at hok ⊢
      rcases hr : (inner (t :: us)).outcome with u | a
      · rw [hr] at hok
        cases hok
      · exact h (t :: us) a (List.cons_ne_nil _ _) hr

theorem overlooks_block :
    Overlooks extra size 1 true (block size inner) (block size' inner') := by
  obtain ⟨p, p', hp, rfl, rfl⟩ := h
  have hitem : Overlooks extra size 0 false (blockItem (recovering p))
      (blockItem (recovering p')) := by
    refine overlooks_peek.bind ?_
    rintro (_ | t)
    · exact overlooks_pure none
    · dsimp only
      split
      · exact overlooks_pure none
      · exact hp.recovering.map some
  have heats : Eats (blockItem (recovering p)) := eats_blockItem (advances_recovering hp)
  exact (overlooks_many hitem heats rfl (Nat.le_refl _) hsize).bindBite fun body =>
    (overlooks_expect _ _).bindEnd fun _ => overlooks_pure _

theorem overlooks_function :
    Overlooks extra size 1 true (function size inner) (function size' inner') := by
  refine (overlooks_expect _ _).bindBite fun name => (overlooks_expect _ _).bindBite fun _ => ?_
  have hbody : ∀ ps : List Token, Overlooks extra size 1 true
      (do
        let _ ← expect .rightParen .parenAfterParameters
        let _ ← expect .leftBrace .braceBeforeBody
        return Stmt.function name ps (← block size inner))
      (do
        let _ ← expect .rightParen .parenAfterParameters
        let _ ← expect .leftBrace .braceBeforeBody
        return Stmt.function name ps (← block size' inner')) := fun ps =>
    (overlooks_expect _ _).bindBite fun _ => (overlooks_expect _ _).bindBite fun _ =>
      (overlooks_block hsize h).bindEnd fun _ => overlooks_pure _
  refine (overlooks_check _).bindBite fun b => ?_
  cases b with
  | true => exact hbody []
  | false =>
    have hparameter : Overlooks extra size 1 false (expect .identifier .parameterName)
        (expect .identifier .parameterName) := (overlooks_expect _ _).weaken (Nat.le_refl _) nofun
    exact (overlooks_commaSeparated hparameter _ hsize).bindBite hbody

end Bodies

theorem overlooks_statement_and_declaration (hsize : size + extra.length ≤ size')
    (hextra : ¬ StartsWith (.keyword .elseWord) extra) (budget : Nat) :
    Overlooks extra size 1 true (statement size budget) (statement size' budget) ∧
      Recovers extra size (declaration size budget) (declaration size' budget) := by
  induction budget using Nat.strongRecOn with
  | _ budget ih =>
    refine ⟨?_, ?_⟩
    · obtain hlt | ⟨budget, rfl⟩ := lt_or_eq_add 2 budget
      · rw [statement_of_lt hlt, statement_of_lt hlt]
        exact overlooks_tooDeep
      have hexpr := overlooks_expression hsize budget
      obtain ⟨hinner, hdeclaration⟩ := ih budget (by omega)
      refine overlooks_byHead (overlooks_expressionStatement hexpr) ⟨rfl, rfl⟩ ?_
      rintro ⟨kind, lexeme, literal, line⟩
      cases kind with
      | keyword word =>
        cases word with
        | forWord =>
          exact Or.inl ⟨_, _, (overlooks_forStatement hexpr hinner).weaken (Nat.zero_le 1) id,
            fun _ => rfl, fun _ => rfl⟩
        | ifWord =>
          exact Or.inl ⟨_, _, (overlooks_ifStatement hexpr hinner hextra).weaken (Nat.zero_le 1) id,
            fun _ => rfl, fun _ => rfl⟩
        | printWord =>
          exact Or.inl ⟨_, _, (overlooks_printStatement hexpr).weaken (Nat.zero_le 1) id,
            fun _ => rfl, fun _ => rfl⟩
        | returnWord =>
          exact Or.inl ⟨_, _, (overlooks_returnStatement hexpr _).weaken (Nat.zero_le 1) id,
            fun _ => rfl, fun _ => rfl⟩
        | whileWord =>
          exact Or.inl ⟨_, _, (overlooks_whileStatement hexpr hinner).weaken (Nat.zero_le 1) id,
            fun _ => rfl, fun _ => rfl⟩
        | _ => exact Or.inr ⟨fun _ => rfl, fun _ => rfl⟩
      | leftBrace =>
        have hblock := (overlooks_block hsize hdeclaration).bindEnd
          fun ss => overlooks_pure (Stmt.block ss)
        exact Or.inl ⟨_, _, hblock.weaken (Nat.zero_le 1) id, fun _ => rfl, fun _ => rfl⟩
      | _ => exact Or.inr ⟨fun _ => rfl, fun _ => rfl⟩
    · obtain hlt | ⟨budget, rfl⟩ := lt_or_eq_add 3 budget
      · rw [declaration_of_lt hlt, declaration_of_lt hlt]
        exact ⟨tooDeep, tooDeep, overlooks_tooDeep, rfl, rfl⟩
      rw [declaration, declaration]
      refine ⟨_, _, (overlooks_accept _).bindBite ?_, rfl, rfl⟩
      rintro (_ | word)
      · refine (overlooks_accept _).bindBite ?_
        rintro (_ | word)
        · exact (ih (budget + 2) (by omega)).1
        · exact overlooks_varDeclaration (overlooks_expression hsize (budget + 1))
      · exact overlooks_function hsize (ih budget (by omega)).2

end Scriptling.Parser
