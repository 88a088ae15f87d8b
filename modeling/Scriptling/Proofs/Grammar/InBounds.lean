-- A cursor over any tokens stays in bounds and gets on: each production of the grammar, read with a
-- cursor, follows the production over lists of tokens, so a run of the cursor ends as the program
-- is read, and what its log holds is fine.
import Scriptling.Proofs.Grammar.Following
import Scriptling.Source.Lexed

namespace Scriptling

variable {α : Type} {us : List Token} {eof : Token}

namespace Reader

open Cursor

/-! ## Expressions -/

section Expressions

variable (hmark : Marked us eof)
include hmark

theorem follows_extending {q : Kind → Bool} {next : α → Option Token → Parser (Option α)}
    {next' : α → Option Token → Reader (Option α)} (hnone : ∀ a, next a none = pure none)
    (hnone' : ∀ a, next' a none = pure none)
    (hsome : ∀ a t, Follows us eof 0 (next a (some t)) (next' a (some t)))
    (hsuffix : ∀ a t ts, (next a (some t) ts).rest <:+ ts) (a : α) :
    Follows us eof 0 (Parser.iterate (fun a => Parser.acceptIf q >>= next a) us.length a)
      (iterate (fun a => acceptIf q >>= next' a) a) := by
  refine follows_iterate (fun a => (follows_acceptIf hmark q).bind ?_)
    (fun a => Parser.eats_acceptIf (hnone a) (hsuffix a)) (fun a => ?_) a
  · rintro (_ | t)
    · rw [hnone, hnone']
      exact follows_pure none
    · exact hsome a t
  · have hend : (Parser.acceptIf q >>= next a) [] = _ := Parser.bind_of_ok rfl
    rw [hend, hnone]
    rfl

theorem follows_chain {rung : Parser.Rung} {operand : Parser RawExpr} {operand' : Reader RawExpr}
    (h : Follows us eof 0 operand operand') (hsuffix : ∀ ts, (operand ts).rest <:+ ts) :
    Follows us eof 0 (Parser.chain us.length rung operand) (chain rung operand') := by
  refine h.bind (follows_extending hmark (fun _ => rfl) (fun _ => rfl) (fun left operator => ?_)
    fun left operator ts => ?_)
  · exact h.bind fun right => follows_pure _
  · show (((fun right => some (rung.join left operator right)) <$> operand) ts).rest <:+ ts
    rw [Parser.map_apply]
    exact hsuffix ts

theorem follows_ladder {operand : Parser RawExpr} {operand' : Reader RawExpr}
    (h : Follows us eof 0 operand operand')
    (ho : Parser.Overlooks [] us.length 1 false operand operand) :
    Follows us eof 0 (Parser.ladder us.length operand) (ladder operand') := by
  unfold Parser.ladder ladder
  have hboth : Follows us eof 0 (Parser.rungs.foldr (Parser.chain us.length) operand)
      (Parser.rungs.foldr chain operand') ∧
      Parser.Overlooks [] us.length 1 false (Parser.rungs.foldr (Parser.chain us.length) operand)
        (Parser.rungs.foldr (Parser.chain us.length) operand) := by
    induction Parser.rungs with
    | nil => exact ⟨h, ho⟩
    | cons rung rest ih =>
      exact ⟨follows_chain hmark ih.1 ih.2.suffix, Parser.overlooks_chain (Nat.le_refl _) ih.2⟩
  exact hboth.1

omit hmark in
/-- Where a token decides what is read, it is looked at once on either side. -/
theorem acceptIf_bind_cons (q : Kind → Bool) (f : Option Token → Parser α) (t : Token)
    (ts : List Token) :
    (Parser.acceptIf q >>= f) (t :: ts) =
      if q t.kind then f (some t) ts else f none (t :: ts) := by
  split
  · rename_i hq
    have haccept : Parser.acceptIf q (t :: ts) = ⟨.ok (some t), ts, []⟩ := if_pos hq
    exact Parser.bind_of_ok haccept
  · rename_i hq
    have haccept : Parser.acceptIf q (t :: ts) = ⟨.ok none, t :: ts, []⟩ := if_neg hq
    exact Parser.bind_of_ok haccept

omit hmark in
theorem accept_bind_cons (k : Kind) (f : Option Token → Parser α) (t : Token) (ts : List Token) :
    (Parser.accept k >>= f) (t :: ts) =
      if t.kind = k then f (some t) ts else f none (t :: ts) := by
  have hbind := acceptIf_bind_cons (· == k) f t ts
  simp only [beq_iff_eq] at hbind
  exact hbind

omit hmark in
/-- The first token decides which term is read. -/
theorem primary_eq (nested : Parser RawExpr) : Parser.primary nested = (do
    if (← Parser.acceptWord .falseWord).isSome then return .literal (.bool false)
    if (← Parser.acceptWord .trueWord).isSome then return .literal (.bool true)
    if (← Parser.acceptWord .nilWord).isSome then return .literal .nil
    if let some t ← Parser.acceptIf [Kind.number, .string].contains then return .literal t.value
    if let some t ← Parser.accept .identifier then return .variable t ()
    if (← Parser.accept .leftParen).isSome then return ← Parser.grouping nested
    Parser.refuse .expression) := by
  funext ts
  cases ts with
  | nil => rfl
  | cons t ts =>
    simp only [Parser.acceptWord, accept_bind_cons, acceptIf_bind_cons, Option.isSome_some,
      Option.isSome_none, if_true, Bool.false_eq_true, if_false]
    obtain ⟨kind, lexeme, literal, line⟩ := t
    cases kind with
    | keyword word => cases word <;> rfl
    | _ => rfl

theorem follows_primary {nested : Parser RawExpr} {nested' : Reader RawExpr}
    (h : Follows us eof 0 nested nested') :
    Follows us eof 0 (Parser.primary nested) (primary nested') := by
  rw [primary_eq]
  refine (follows_acceptWord hmark _).bind ?_
  rintro (_ | _)
  · refine (follows_acceptWord hmark _).bind ?_
    rintro (_ | _)
    · refine (follows_acceptWord hmark _).bind ?_
      rintro (_ | _)
      · refine (follows_acceptIf hmark _).bind ?_
        rintro (_ | t)
        · refine (follows_accept hmark _).bind ?_
          rintro (_ | t)
          · refine (follows_accept hmark _).bind ?_
            rintro (_ | _)
            · exact follows_refuse hmark _
            · exact h.bind fun e => (follows_expect hmark _ _).bind fun _ => follows_pure _
          · exact follows_pure _
        · exact follows_pure _
      · exact follows_pure _
    · exact follows_pure _
  · exact follows_pure _

theorem follows_finishCall {nested : Parser RawExpr} {nested' : Reader RawExpr}
    (h : Follows us eof 0 nested nested') (callee : RawExpr) :
    Follows us eof 0 (Parser.finishCall us.length nested callee) (finishCall nested' callee) := by
  refine (follows_check hmark _).bind fun b => ?_
  cases b with
  | true => exact (follows_expect hmark _ _).bind fun _ => follows_pure _
  | false =>
    exact (follows_commaSeparated hmark h _).bind fun es =>
      (follows_expect hmark _ _).bind fun _ => follows_pure _

theorem follows_call {nested : Parser RawExpr} {nested' : Reader RawExpr}
    (h : Follows us eof 0 nested nested')
    (ho : Parser.Overlooks [] us.length 1 false nested nested) :
    Follows us eof 0 (Parser.call us.length nested) (call nested') := by
  refine (follows_primary hmark h).bind (follows_extending hmark (fun _ => rfl) (fun _ => rfl)
    (fun callee paren => ?_) fun callee paren ts => ?_)
  · exact (follows_finishCall hmark h callee).bind fun e => follows_pure _
  · show ((some <$> Parser.finishCall us.length nested callee) ts).rest <:+ ts
    rw [Parser.map_apply]
    exact (Parser.overlooks_finishCall (Nat.le_refl _) ho callee).suffix ts

omit hmark in
theorem expression_of_lt {budget : Nat} (h : budget < 12) : expression budget = tooDeep := by
  match budget, h with
  | 0, _ | 1, _ | 2, _ | 3, _ | 4, _ | 5, _ | 6, _ | 7, _ | 8, _ | 9, _ | 10, _ | 11, _ => rfl

omit hmark in
theorem unary_of_lt {budget : Nat} (h : budget < 3) : unary budget = tooDeep := by
  match budget, h with
  | 0, _ | 1, _ | 2, _ => rfl

theorem follows_expression_and_unary (budget : Nat) :
    Follows us eof 0 (Parser.expression us.length budget) (expression budget) ∧
      Follows us eof 0 (Parser.unary us.length budget) (unary budget) := by
  induction budget using Nat.strongRecOn with
  | _ budget ih =>
    refine ⟨?_, ?_⟩
    · obtain hlt | ⟨budget, rfl⟩ := Parser.lt_or_eq_add 12 budget
      · rw [Parser.expression_of_lt hlt, expression_of_lt hlt]
        exact follows_tooDeep
      · rw [Parser.expression, expression]
        have hunary : Parser.Overlooks [] us.length 1 false (Parser.unary us.length budget)
            (Parser.unary us.length budget) :=
          (Parser.overlooks_expression_and_unary (Nat.le_refl us.length) budget).2
        refine (follows_ladder hmark (ih budget (by omega)).2 hunary).bind fun target =>
          (follows_accept hmark _).bind ?_
        rintro (_ | equals)
        · exact follows_pure target
        · refine (ih (budget + 11) (by omega)).1.bind fun value => ?_
          cases target with
          | «variable» => exact follows_pure _
          | _ => exact (follows_complainAt _ _).bind fun _ => follows_pure _
    · obtain hlt | ⟨budget, rfl⟩ := Parser.lt_or_eq_add 3 budget
      · rw [Parser.unary_of_lt hlt, unary_of_lt hlt]
        exact follows_tooDeep
      · rw [Parser.unary, unary]
        refine (follows_acceptIf hmark _).bind ?_
        rintro (_ | operator)
        · exact follows_call hmark (ih budget (by omega)).1
            (Parser.overlooks_expression (Nat.le_refl us.length) budget)
        · exact (ih (budget + 2) (by omega)).2.bind fun right => follows_pure _

theorem follows_expression (budget : Nat) :
    Follows us eof 0 (Parser.expression us.length budget) (expression budget) :=
  (follows_expression_and_unary hmark budget).1

end Expressions

/-! ## Statements -/

section Statements

variable {expr : Parser RawExpr} {expr' : Reader RawExpr} {inner : Parser RawStmt}
  {inner' : Reader RawStmt} (hmark : Marked us eof) (h : Follows us eof 0 expr expr')
include hmark h

theorem follows_varDeclaration :
    Follows us eof 0 (Parser.varDeclaration expr) (varDeclaration expr') := by
  refine (follows_expect hmark _ _).bind fun name => (follows_accept hmark _).bind ?_
  rintro (_ | equals)
  · exact (follows_expect hmark _ _).bind fun _ => follows_pure _
  · exact (h.map some).bind fun e => (follows_expect hmark _ _).bind fun _ => follows_pure _

theorem follows_expressionStatement :
    Follows us eof 0 (Parser.expressionStatement expr) (expressionStatement expr') :=
  h.bind fun _ => (follows_expect hmark _ _).bind fun _ => follows_pure _

theorem follows_printStatement :
    Follows us eof 0 (Parser.printStatement expr) (printStatement expr') :=
  h.bind fun _ => (follows_expect hmark _ _).bind fun _ => follows_pure _

/-- An expression that is left out where a token of the kind `k` comes. -/
theorem follows_perhaps (k : Kind) {f : Option RawExpr → Parser RawStmt}
    {f' : Option RawExpr → Reader RawStmt} (hf : ∀ e, Follows us eof 0 (f e) (f' e)) :
    Follows us eof 0
      (Parser.check k >>= fun stop =>
        if stop = true then pure none >>= f else (some <$> expr) >>= f)
      (check k >>= fun stop =>
        if stop = true then pure none >>= f' else (some <$> expr') >>= f') := by
  refine (follows_check hmark k).bind fun b => ?_
  cases b with
  | true => exact hf none
  | false => exact (h.map some).bind hf

theorem follows_returnStatement (keyword : Token) :
    Follows us eof 0 (Parser.returnStatement expr keyword) (returnStatement expr' keyword) :=
  follows_perhaps hmark h _ fun _ => (follows_expect hmark _ _).bind fun _ => follows_pure _

variable (hinner : Follows us eof 0 inner inner')
include hinner

theorem follows_ifStatement :
    Follows us eof 0 (Parser.ifStatement expr inner) (ifStatement expr' inner') := by
  refine (follows_expect hmark _ _).bind fun _ => h.bind fun condition =>
    (follows_expect hmark _ _).bind fun _ => hinner.bind fun yes =>
    (follows_acceptWord hmark _).bind ?_
  rintro (_ | word)
  · exact follows_pure _
  · exact (hinner.map some).bind fun no => follows_pure _

theorem follows_whileStatement :
    Follows us eof 0 (Parser.whileStatement expr inner) (whileStatement expr' inner') :=
  (follows_expect hmark _ _).bind fun _ => h.bind fun _ =>
    (follows_expect hmark _ _).bind fun _ => hinner.bind fun _ => follows_pure _

theorem follows_forStatement :
    Follows us eof 0 (Parser.forStatement expr inner) (forStatement expr' inner') := by
  refine (follows_expect hmark _ _).bind fun _ => ?_
  -- the clauses behind the initializer
  have hclauses : ∀ i : Option RawStmt, Follows us eof 0
      (do
        let condition ← if ← Parser.check .semicolon then pure none else some <$> expr
        let _ ← Parser.expect .semicolon .semicolonAfterLoopCondition
        let increment ← if ← Parser.check .rightParen then pure none else some <$> expr
        let _ ← Parser.expect .rightParen .parenAfterForClauses
        return Parser.forLoop i condition increment (← inner))
      (do
        let condition ← if ← check .semicolon then pure none else some <$> expr'
        let _ ← expect .semicolon .semicolonAfterLoopCondition
        let increment ← if ← check .rightParen then pure none else some <$> expr'
        let _ ← expect .rightParen .parenAfterForClauses
        return Parser.forLoop i condition increment (← inner')) := fun i =>
    follows_perhaps hmark h _ fun c => (follows_expect hmark _ _).bind fun _ =>
      follows_perhaps hmark h _ fun n => (follows_expect hmark _ _).bind fun _ =>
      hinner.bind fun s => follows_pure _
  refine (follows_accept hmark _).bind ?_
  rintro (_ | semicolon)
  · refine (follows_acceptWord hmark _).bind ?_
    rintro (_ | word)
    · exact ((follows_expressionStatement hmark h).map some).bind hclauses
    · exact ((follows_varDeclaration hmark h).map some).bind hclauses
  · exact hclauses none

end Statements

section Declarations

variable (hmark : Marked us eof)

/-- A turn that is made only before the mark of the end. -/
theorem follows_turn {inner : Parser (Option RawStmt)} {inner' : Reader (Option RawStmt)}
    (h : Follows us eof 1 inner inner') {c : Cursor} (hc : c.Within us eof) {t : Token}
    {rest : List Token} (hrest : us.drop c.current = t :: rest) :
    Ends us eof c ((some <$> inner) (t :: rest)) ((some <$> inner') c) := by
  have hmap := h.map some c hc (lt_of_drop_eq_cons hrest)
  rwa [hrest] at hmap

include hmark

theorem follows_blockItem {inner : Parser (Option RawStmt)} {inner' : Reader (Option RawStmt)}
    (h : Follows us eof 1 inner inner') :
    Follows us eof 0 (Parser.blockItem inner) (blockItem inner') := by
  intro c hc _
  rcases hrest : us.drop c.current with _ | ⟨t, rest⟩
  · have hrun : blockItem inner' c = .ok none c :=
      (bind_of_ok (checkIf_of_nil hmark hc hrest _)).trans
        (bind_of_ok (isAtEnd_of_nil hmark hc hrest))
    have hreaches : c.Reaches us eof c [] [] := hrest ▸ hc.reaches
    rw [hrun]
    exact .ok hreaches rfl
  · have hcheck : blockItem inner' c = _ := bind_of_ok (checkIf_of_cons hmark hc hrest _)
    rw [Parser.blockItem_cons, hcheck]
    by_cases hbrace : t.kind = .rightBrace
    · rw [if_pos hbrace, if_pos (by simpa using hbrace)]
      exact .ok (hrest ▸ hc.reaches) rfl
    · rw [if_neg hbrace, if_neg (by simpa using hbrace)]
      rw [bind_of_ok (isAtEnd_of_cons hmark hc hrest)]
      exact follows_turn h hc hrest

theorem follows_topItem {inner : Parser (Option RawStmt)} {inner' : Reader (Option RawStmt)}
    (h : Follows us eof 1 inner inner') :
    Follows us eof 0 (Parser.topItem inner) (topItem inner') := by
  intro c hc _
  rcases hrest : us.drop c.current with _ | ⟨t, rest⟩
  · have hrun : topItem inner' c = .ok none c := bind_of_ok (isAtEnd_of_nil hmark hc hrest)
    have hreaches : c.Reaches us eof c [] [] := hrest ▸ hc.reaches
    rw [hrun]
    exact .ok hreaches rfl
  · have hrun : topItem inner' c = (some <$> inner') c :=
      bind_of_ok (isAtEnd_of_cons hmark hc hrest)
    rw [hrun]
    exact follows_turn h hc hrest

theorem follows_block {inner : Parser (Option RawStmt)} {inner' : Reader (Option RawStmt)}
    (h : Follows us eof 1 inner inner') (hadvances : Parser.Advances inner) :
    Follows us eof 0 (Parser.block us.length inner) (block inner') := by
  have hmany := follows_many (follows_blockItem hmark h) (Parser.eats_blockItem hadvances) rfl
  exact hmany.bind fun body => (follows_expect hmark _ _).bind fun _ => follows_pure _

theorem follows_function {inner : Parser (Option RawStmt)} {inner' : Reader (Option RawStmt)}
    (h : Follows us eof 1 inner inner') (hadvances : Parser.Advances inner) :
    Follows us eof 0 (Parser.function us.length inner) (function inner') := by
  have hbody := follows_block hmark h hadvances
  refine (follows_expect hmark _ _).bind fun name => (follows_expect hmark _ _).bind fun _ =>
    (follows_check hmark _).bind fun b => ?_
  cases b with
  | true =>
    exact (follows_expect hmark _ _).bind fun _ => (follows_expect hmark _ _).bind fun _ =>
      hbody.bind fun _ => follows_pure _
  | false =>
    exact (follows_commaSeparated hmark (follows_expect hmark _ _) _).bind fun ps =>
      (follows_expect hmark _ _).bind fun _ => (follows_expect hmark _ _).bind fun _ =>
      hbody.bind fun _ => follows_pure _

omit hmark in
/-- The first token decides which statement is read. -/
theorem statement_eq (size budget : Nat) : Parser.statement size (budget + 2) = (do
    if (← Parser.acceptWord .forWord).isSome then
      return ← Parser.forStatement (Parser.expression size budget) (Parser.statement size budget)
    if (← Parser.acceptWord .ifWord).isSome then
      return ← Parser.ifStatement (Parser.expression size budget) (Parser.statement size budget)
    if (← Parser.acceptWord .printWord).isSome then
      return ← Parser.printStatement (Parser.expression size budget)
    if let some keyword ← Parser.acceptWord .returnWord then
      return ← Parser.returnStatement (Parser.expression size budget) keyword
    if (← Parser.acceptWord .whileWord).isSome then
      return ← Parser.whileStatement (Parser.expression size budget) (Parser.statement size budget)
    if (← Parser.accept .leftBrace).isSome then
      return ← Parser.blockStatement size (Parser.declaration size budget)
    Parser.expressionStatement (Parser.expression size budget)) := by
  funext ts
  cases ts with
  | nil => rfl
  | cons t us =>
    simp only [Parser.statement_cons, Parser.acceptWord, accept_bind_cons, Option.isSome_some,
      Option.isSome_none, if_true, Bool.false_eq_true, if_false]

omit hmark in
theorem statement_of_lt {budget : Nat} (h : budget < 2) : statement budget = tooDeep := by
  match budget, h with
  | 0, _ | 1, _ => rfl

omit hmark in
theorem declaration_of_lt {budget : Nat} (h : budget < 3) :
    declaration budget = recovering tooDeep := by
  match budget, h with
  | 0, _ | 1, _ | 2, _ => rfl

omit hmark in
theorem advances_declaration (size budget : Nat) :
    Parser.Advances (Parser.declaration size budget) := by
  obtain ⟨p, p', hp, heq, -⟩ := (Parser.overlooks_statement_and_declaration (Nat.le_refl size)
    (Parser.not_startsWith_nil _) budget).2
  rw [heq]
  exact Parser.advances_recovering hp

theorem follows_statement_and_declaration (budget : Nat) :
    Follows us eof 0 (Parser.statement us.length budget) (statement budget) ∧
      Follows us eof 1 (Parser.declaration us.length budget) (declaration budget) := by
  induction budget using Nat.strongRecOn with
  | _ budget ih =>
    refine ⟨?_, ?_⟩
    · obtain hlt | ⟨budget, rfl⟩ := Parser.lt_or_eq_add 2 budget
      · rw [Parser.statement_of_lt hlt, statement_of_lt hlt]
        exact follows_tooDeep
      have hexpr := follows_expression hmark budget
      obtain ⟨hinner, hdeclaration⟩ := ih budget (by omega)
      rw [statement_eq, statement]
      refine (follows_acceptWord hmark _).bind ?_
      rintro (_ | _)
      · refine (follows_acceptWord hmark _).bind ?_
        rintro (_ | _)
        · refine (follows_acceptWord hmark _).bind ?_
          rintro (_ | _)
          · refine (follows_acceptWord hmark _).bind ?_
            rintro (_ | keyword)
            · refine (follows_acceptWord hmark _).bind ?_
              rintro (_ | _)
              · refine (follows_accept hmark _).bind ?_
                rintro (_ | _)
                · exact follows_expressionStatement hmark hexpr
                · exact (follows_block hmark hdeclaration (advances_declaration _ _)).bind
                    fun _ => follows_pure _
              · exact follows_whileStatement hmark hexpr hinner
            · exact follows_returnStatement hmark hexpr keyword
          · exact follows_printStatement hmark hexpr
        · exact follows_ifStatement hmark hexpr hinner
      · exact follows_forStatement hmark hexpr hinner
    · have hadvances := advances_declaration us.length budget
      obtain hlt | ⟨budget, rfl⟩ := Parser.lt_or_eq_add 3 budget
      · have hrecovers : Parser.declaration us.length budget =
            Parser.recovering Parser.tooDeep := Parser.declaration_of_lt hlt
        rw [hrecovers] at hadvances
        rw [hrecovers, declaration_of_lt hlt]
        exact follows_recovering hmark follows_tooDeep hadvances
      rw [Parser.declaration] at hadvances
      rw [Parser.declaration, declaration]
      refine follows_recovering hmark ((follows_acceptWord hmark _).bind ?_) hadvances
      rintro (_ | word)
      · refine (follows_acceptWord hmark _).bind ?_
        rintro (_ | word)
        · exact (ih (budget + 2) (by omega)).1
        · exact follows_varDeclaration hmark (follows_expression hmark _)
      · exact follows_function hmark (ih budget (by omega)).2 (advances_declaration _ _)

omit hmark in
theorem not_malformed_declaration (size budget : Nat) (ts : List Token) :
    (Parser.declaration size budget ts).outcome ≠ .error .malformed := by
  obtain ⟨p, p', -, heq, -⟩ := (Parser.overlooks_statement_and_declaration (Nat.le_refl size)
    (Parser.not_startsWith_nil _) budget).2
  rw [heq, Parser.recovering]
  split <;> simp

omit hmark in
/-- Calls that are over once the cursor is behind the places where they were made. -/
theorem within_endCalls {c : Cursor} (hc : c.Within us eof) {outer : List Nat}
    (houter : ∀ start ∈ outer, start ≤ c.current ∧ start < us.length)
    (hlt : ∀ start ∈ c.calls, start < c.current) (n : Nat) :
    ({ c with
      calls := outer
      log := (c.calls.take n).map (.declared · c.current) ++ c.log } : Cursor).Within us eof where
  tokens := hc.tokens
  current := hc.current
  calls := houter
  log := by
    intro e he
    rcases List.mem_append.1 he with he | he
    · obtain ⟨start, hstart, rfl⟩ := List.mem_map.1 he
      have hmem := List.mem_of_mem_take hstart
      exact ⟨(hc.calls start hmem).2, hlt start hmem⟩
    · exact hc.log e he

/-- The calls that were left open are over when the cursor has skipped to the next statement. -/
theorem follows_topLevel (budget : Nat) :
    Follows us eof 1 (Parser.topLevel us.length budget) (topLevel budget) := by
  intro c hc hleast
  have hends := (follows_statement_and_declaration hmark budget).2 c hc hleast
  have hmalformed := not_malformed_declaration us.length budget (us.drop c.current)
  generalize hp : Parser.declaration us.length budget (us.drop c.current) = parsed
    at hends hmalformed
  generalize hq : declaration budget c = result at hends
  cases hends with
  | @ok o c' rest complaints reaches calls =>
    have hrun : topLevel budget c = .ok o c' := by rw [topLevel, hq]
    rw [Parser.topLevel_of_ok hp, hrun]
    exact .ok reaches calls
  | malformed => exact absurd rfl hmalformed
  | @tooDeep c' rest complaints reaches =>
    have hne : us ≠ [] := List.length_pos_iff.1 (by omega)
    obtain ⟨c₀, hcomplain, reaches₀, hcalls₀⟩ := complain_ends hmark reaches.within .tooDeep
    have hreport := reaches.trans reaches₀
    have hsince : c.errors.length < c₀.errors.length := by
      rw [hreport.errors]
      simp
    obtain ⟨c₁, habandon, reaches₁, hcalls₁⟩ := abandon_ends hmark hreport.within hne hsince
    rw [reaches₀.rest] at reaches₁
    have hboth := hreport.trans reaches₁
    have hforward : c'.current ≤ c₁.current := Nat.le_trans reaches₀.forward reaches₁.forward
    have hlt : ∀ start ∈ c₁.calls, start < c₁.current := by
      intro start hstart
      rw [hcalls₁, hcalls₀] at hstart
      have hcall := reaches.within.calls start hstart
      by_cases hend : us.drop c'.current = []
      · have := current_of_nil reaches.within hend
        omega
      · have hskipped := current_lt_of_rest reaches₁.rest (Parser.synchronize_length_lt hend)
        exact Nat.lt_of_le_of_lt hcall.1 hskipped
    have houter : ∀ start ∈ c.calls, start ≤ c₁.current ∧ start < us.length := by
      intro start hstart
      have := hc.calls start hstart
      have := hboth.forward
      omega
    have hrun : topLevel budget c = (do
        complain .tooDeep
        abandon c.errors.length
        endCalls c.calls
        return none : Reader (Option RawStmt)) c' := by
      rw [topLevel, hq]
    rw [Parser.topLevel_of_error hp, hrun, bind_of_ok hcomplain, bind_of_ok habandon]
    rw [List.append_nil, reaches.rest] at hboth
    exact .ok ⟨within_endCalls hboth.within houter hlt _, hboth.forward, hboth.rest,
      hboth.errors⟩ rfl

omit hmark in
theorem eats_topLevel (size budget : Nat) :
    Parser.Eats (Parser.topItem (Parser.topLevel size budget)) := by
  intro ts o hok
  cases ts with
  | nil => cases hok
  | cons t rest =>
    obtain ⟨o', rest', complaints, htop, -, hlt⟩ :=
      Parser.topLevel_takes size budget (List.cons_ne_nil t rest)
    have hmap : Parser.topItem (Parser.topLevel size budget) (t :: rest) =
        (some <$> Parser.topLevel size budget) (t :: rest) := rfl
    rw [hmap, Parser.map_apply, htop]
    exact hlt

theorem follows_program (budget : Nat) :
    Follows us eof 0 (Parser.program us.length budget) (program budget) := by
  have htop := follows_topItem hmark (follows_topLevel hmark budget)
  exact (follows_many htop (eats_topLevel _ _) rfl).bind fun os => follows_pure _

end Declarations

/-! ## Programs -/

/-- A cursor that parses a row of tokens, from before its first token. -/
def parse (limit : Nat) (tokens : List Token) : EStateM.Result Breach Cursor (List RawStmt) :=
  program limit (.start tokens)

end Reader

theorem within_start (us : List Token) (eof : Token) :
    (Cursor.start (us ++ [eof])).Within us eof :=
  ⟨rfl, Nat.zero_le _, List.forall_mem_nil _, List.forall_mem_nil _⟩

/-- Whatever the tokens are, with one mark of the end behind them: the cursor comes to an end with
the statements and the errors of the program, at the mark, and no call is left open. All the way it
stays in bounds, no token before the first is read, each call for a declaration moves it forward,
and a declaration is dropped or a token skipped only after an error. -/
theorem parse_in_bounds (limit : Nat) (us : List Token) (eof : Token) (heof : eof.kind = .eof)
    (hus : ∀ t ∈ us, t.kind ≠ .eof) :
    ∃ c : Cursor, Reader.parse limit (us ++ [eof]) = .ok (parse limit us).statements c ∧
      c.errors = (parse limit us).complaints.map (·.error eof.line) ∧
      c.current = us.length ∧ c.calls = [] ∧ ∀ e ∈ c.log, e.Fine us.length := by
  obtain ⟨os, complaints, hmany⟩ := Parser.many_topLevel us.length limit (Nat.le_refl us.length)
  have hparse := parse_eq hmany
  have hprogram : Parser.program us.length limit us =
      ⟨.ok os.reduceOption, [], complaints⟩ := by
    have hmap : Parser.program us.length limit us = (List.reduceOption <$>
      Parser.many (Parser.topItem (Parser.topLevel us.length limit)) us.length) us := rfl
    rw [hmap, Parser.map_apply, hmany]
    rfl
  have hends : Reader.Ends us eof (.start (us ++ [eof])) (Parser.program us.length limit us)
      (Reader.parse limit (us ++ [eof])) :=
    Reader.follows_program ⟨heof, hus⟩ limit _ (within_start us eof) (Nat.zero_le _)
  rw [hprogram] at hends
  generalize hrun : Reader.parse limit (us ++ [eof]) = result at hends
  cases hends with
  | @ok _ c' _ _ reaches calls =>
    refine ⟨c', by rw [hparse], ?_, Reader.current_of_nil reaches.within reaches.rest, calls,
      reaches.within.log⟩
    rw [hparse]
    exact reaches.errors

/-- Tokens none of which starts a statement that can be read, and a block that is not closed. -/
def strayTokens : List Token := (lex "\x7d class ) \x7b var = ; \x7b return").tokens

theorem strayTokens_in_bounds :
    strayTokens.length = 9 ∧
      ∃ c : Cursor, Reader.parse nestingLimit (strayTokens ++ [.endAt 1]) =
          .ok (parse nestingLimit strayTokens).statements c ∧
        c.errors = (parse nestingLimit strayTokens).complaints.map (·.error 1) ∧
        c.current = strayTokens.length ∧ c.calls = [] ∧
        ∀ e ∈ c.log, e.Fine strayTokens.length := by
  refine ⟨by decide +kernel, parse_in_bounds nestingLimit strayTokens (.endAt 1) rfl ?_⟩
  decide +kernel

end Scriptling
