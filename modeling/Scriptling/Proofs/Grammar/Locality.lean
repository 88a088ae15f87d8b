-- Reading does not look at lines. Parsers look at the kinds of tokens, so tokens that differ in
-- their lines only are read as trees that do.
import Scriptling.Proofs.Grammar.Acceptance
import Scriptling.Proofs.Grammar.Tracking

namespace Scriptling.Parser

variable {α β : Type} {T : Token → Token → Prop} {size : Nat}

/-! ## Expressions -/

/-- Nothing is asked of the labels of raw trees. -/
def NoLabel (_ _ : Unit) : Prop := True

section Expressions

/-- Two parsers that give expressions alike. -/
def TracksExpr (T : Token → Token → Prop) (p p' : Parser RawExpr) : Prop :=
  Tracks T (LikeExpr T NoLabel) p p'

variable (hT : Lookalike T)
include hT

theorem tracks_chain {rung : Rung}
    (hjoin : ∀ {e₁ e₁' t t' e₂ e₂'}, LikeExpr T NoLabel e₁ e₁' → T t t' →
      LikeExpr T NoLabel e₂ e₂' → LikeExpr T NoLabel (rung.join e₁ t e₂) (rung.join e₁' t' e₂'))
    {operand : Parser RawExpr} (h : TracksExpr T operand operand) :
    TracksExpr T (chain size rung operand) (chain size rung operand) := by
  refine Tracks.bind h fun first first' hfirst => tracks_iterate ?_ size hfirst
  intro left left' hleft
  refine (tracks_acceptIf hT _).bind ?_
  rintro o o' (ht | _)
  · exact Tracks.bind h fun right right' hright => tracks_pure (.some (hjoin hleft ht hright))
  · exact tracks_pure .none

theorem tracks_ladder {operand : Parser RawExpr} (h : TracksExpr T operand operand) :
    TracksExpr T (ladder size operand) (ladder size operand) := by
  have hall : ∀ ls : List Grammar.Level, TracksExpr T
      ((ls.map rungOf).foldr (chain size) operand)
      ((ls.map rungOf).foldr (chain size) operand) := by
    intro ls
    induction ls with
    | nil => exact h
    | cons l ls ih =>
      refine tracks_chain hT (fun h₁ ht h₂ => ?_) ih
      cases l with
      | logicOr | logicAnd => exact .logical h₁ ht h₂
      | equality | comparison | term | factor => exact .binary h₁ ht h₂
  exact hall Grammar.Level.all

theorem tracks_finishCall {nested : Parser RawExpr} (h : TracksExpr T nested nested)
    {callee callee' : RawExpr} (hcallee : LikeExpr T NoLabel callee callee') :
    TracksExpr T (finishCall size nested callee) (finishCall size nested callee') := by
  have hclose : ∀ es es', List.Forall₂ (LikeExpr T NoLabel) es es' → TracksExpr T
      (do
        let paren ← expect .rightParen .parenAfterArguments
        return Expr.call callee paren es)
      (do
        let paren ← expect .rightParen .parenAfterArguments
        return Expr.call callee' paren es') := fun es es' hes =>
    (tracks_expect hT _ _).bind fun t t' ht => tracks_pure (.called hcallee ht hes)
  refine (tracks_check hT _).bind fun b b' hb => ?_
  subst hb
  cases b with
  | true => exact hclose [] [] .nil
  | false => exact (tracks_commaSeparated hT h _ size).bind hclose

theorem tracks_primary {nested : Parser RawExpr} (h : TracksExpr T nested nested) :
    TracksExpr T (primary nested) (primary nested) := by
  have hrefuse : TracksExpr T (refuse .expression) (refuse .expression) :=
    tracks_of_not_gives fun _ _ _ => not_gives_refuse
  refine tracks_of_eq fun ts ts' hts => ?_
  cases hts with
  | nil => exact ⟨_, _, [], [], hrefuse, .nil, rfl, rfl⟩
  | @cons t t' ts ts' ht hts =>
    have hliteral : ∀ {v v'}, v = v' → TracksExpr T (pure (.literal v)) (pure (.literal v')) := by
      rintro v _ rfl
      exact tracks_pure .literal
    have hvalue : t.value = t'.value := by
      unfold Token.value
      rw [hT.literal ht]
    have hkind := hT.kind ht
    obtain ⟨kind, lexeme, literal, line⟩ := t
    obtain ⟨kind', lexeme', literal', line'⟩ := t'
    obtain rfl : kind = kind' := hkind
    cases kind with
    | number | string => exact ⟨_, _, ts, ts', hliteral hvalue, hts, rfl, rfl⟩
    | identifier => exact ⟨_, _, ts, ts', tracks_pure (.variable ht trivial), hts, rfl, rfl⟩
    | leftParen =>
      have hgrouping : TracksExpr T (grouping nested) (grouping nested) :=
        Tracks.bind h fun e e' he => (tracks_expect hT _ _).bind fun _ _ _ =>
          tracks_pure (.grouping he)
      exact ⟨_, _, ts, ts', hgrouping, hts, rfl, rfl⟩
    | keyword word =>
      cases word with
      | falseWord | trueWord | nilWord => exact ⟨_, _, ts, ts', hliteral rfl, hts, rfl, rfl⟩
      | _ => exact ⟨_, _, _, _, hrefuse, .cons ht hts, rfl, rfl⟩
    | _ => exact ⟨_, _, _, _, hrefuse, .cons ht hts, rfl, rfl⟩

theorem tracks_call {nested : Parser RawExpr} (h : TracksExpr T nested nested) :
    TracksExpr T (call size nested) (call size nested) := by
  refine Tracks.bind (tracks_primary hT h) fun term term' hterm => tracks_iterate ?_ size hterm
  intro callee callee' hcallee
  refine (tracks_accept hT _).bind ?_
  rintro o o' (ht | _)
  · exact Tracks.bind (tracks_finishCall hT h hcallee) fun e e' he => tracks_pure (.some he)
  · exact tracks_pure .none

theorem tracks_expression_and_unary (budget : Nat) :
    TracksExpr T (expression size budget) (expression size budget) ∧
      TracksExpr T (unary size budget) (unary size budget) := by
  induction budget using Nat.strongRecOn with
  | _ budget ih =>
    refine ⟨?_, ?_⟩
    · obtain hlt | ⟨budget, rfl⟩ := lt_or_eq_add 12 budget
      · rw [expression_of_lt hlt]
        exact tracks_of_not_gives fun _ _ _ => not_gives_tooDeep
      · rw [expression]
        refine Tracks.bind (tracks_ladder hT (ih budget (by omega)).2)
          fun target target' htarget => (tracks_accept hT _).bind ?_
        rintro o o' (_ | _)
        · refine Tracks.bind (ih (budget + 11) (by omega)).1 fun value value' hvalue => ?_
          cases htarget with
          | «variable» name _ => exact tracks_pure (.assign name hvalue trivial)
          | _ =>
            refine tracks_of_not_gives fun ts e rest hgives => ?_
            obtain ⟨_, _, hcomplain, -⟩ := gives_bind.1 hgives
            cases hcomplain
        · exact tracks_pure htarget
    · obtain hlt | ⟨budget, rfl⟩ := lt_or_eq_add 3 budget
      · rw [unary_of_lt hlt]
        exact tracks_of_not_gives fun _ _ _ => not_gives_tooDeep
      · rw [unary]
        refine (tracks_acceptIf hT _).bind ?_
        rintro o o' (ht | _)
        · refine Tracks.bind (ih (budget + 2) (by omega)).2 fun right right' hright => ?_
          exact tracks_pure (.unary ht hright)
        · exact tracks_call hT (ih budget (by omega)).1

theorem tracks_expression (budget : Nat) :
    TracksExpr T (expression size budget) (expression size budget) :=
  (tracks_expression_and_unary hT budget).1

end Expressions

/-! ## Statements -/

/-- Two parsers that give statements alike. -/
def TracksStmt (T : Token → Token → Prop) (p p' : Parser RawStmt) : Prop :=
  Tracks T (LikeStmt T NoLabel) p p'

section Statements

variable {expr : Parser RawExpr} {inner : Parser RawStmt} (hT : Lookalike T)
  (h : TracksExpr T expr expr)
include hT h

theorem tracks_varDeclaration : TracksStmt T (varDeclaration expr) (varDeclaration expr) := by
  refine (tracks_expect hT _ _).bind fun name name' hname => ?_
  have hend : ∀ e e', Option.Rel (LikeExpr T NoLabel) e e' → TracksStmt T
      (do
        let _ ← expect .semicolon .semicolonAfterVariable
        return Stmt.var name e)
      (do
        let _ ← expect .semicolon .semicolonAfterVariable
        return Stmt.var name' e') := by
    intro e e' he
    refine (tracks_expect hT _ _).bind fun _ _ _ => tracks_pure ?_
    cases he with
    | some he => exact .var hname he
    | none => exact .plainVar hname
  refine (tracks_accept hT _).bind ?_
  rintro o o' (_ | _)
  · exact (Tracks.map h fun _ _ he => .some he).bind hend
  · exact hend none none .none

theorem tracks_expressionStatement :
    TracksStmt T (expressionStatement expr) (expressionStatement expr) :=
  Tracks.bind h fun _ _ he => (tracks_expect hT _ _).bind fun _ _ _ =>
    tracks_pure (.expression he)

theorem tracks_printStatement : TracksStmt T (printStatement expr) (printStatement expr) :=
  Tracks.bind h fun _ _ he => (tracks_expect hT _ _).bind fun _ _ _ => tracks_pure (.print he)

/-- An expression that is left out where a token of the kind `k` comes. -/
theorem tracks_perhaps (k : Kind) {f f' : Option RawExpr → Parser RawStmt}
    (hf : ∀ e e', Option.Rel (LikeExpr T NoLabel) e e' → TracksStmt T (f e) (f' e')) :
    TracksStmt T
      (check k >>= fun stop => if stop = true then pure none >>= f else (some <$> expr) >>= f)
      (check k >>= fun stop =>
        if stop = true then pure none >>= f' else (some <$> expr) >>= f') := by
  refine (tracks_check hT k).bind fun b b' hb => ?_
  subst hb
  cases b with
  | true => exact hf none none .none
  | false => exact (Tracks.map h fun _ _ he => .some he).bind hf

theorem tracks_returnStatement {t t' : Token} (ht : T t t') :
    TracksStmt T (returnStatement expr t) (returnStatement expr t') := by
  refine tracks_perhaps hT h _ fun e e' he => (tracks_expect hT _ _).bind fun _ _ _ =>
    tracks_pure ?_
  cases he with
  | some he => exact .giveBack ht he
  | none => exact .plainGiveBack ht

omit hT h in
theorem like_forLoop {i i' : Option RawStmt} {c c' n n' : Option RawExpr} {s s' : RawStmt}
    (hi : Option.Rel (LikeStmt T NoLabel) i i') (hc : Option.Rel (LikeExpr T NoLabel) c c')
    (hn : Option.Rel (LikeExpr T NoLabel) n n') (hs : LikeStmt T NoLabel s s') :
    LikeStmt T NoLabel (forLoop i c n s) (forLoop i' c' n' s') := by
  have hcondition : LikeExpr T NoLabel (c.getD (.literal (.bool true)))
      (c'.getD (.literal (.bool true))) := by
    cases hc with
    | some hc => exact hc
    | none => exact .literal
  have hloop : ∀ {b b'}, LikeStmt T NoLabel b b' →
      LikeStmt T NoLabel (forLoop i c none b) (forLoop i' c' none b') := by
    intro b b' hb
    cases hi with
    | some hi => exact .braced (.cons hi (.cons (.loop hcondition hb) .nil))
    | none => exact .loop hcondition hb
  cases hn with
  | some hn => exact hloop (.braced (.cons hs (.cons (.expression hn) .nil)))
  | none => exact hloop hs

variable (hinner : TracksStmt T inner inner)
include hinner

theorem tracks_ifStatement : TracksStmt T (ifStatement expr inner) (ifStatement expr inner) := by
  refine (tracks_expect hT _ _).bind fun _ _ _ => Tracks.bind h fun e e' he =>
    (tracks_expect hT _ _).bind fun _ _ _ => Tracks.bind hinner fun s s' hs =>
    (tracks_accept hT _).bind ?_
  rintro o o' (_ | _)
  · refine Tracks.bind (Tracks.map hinner fun _ _ hs' => Option.Rel.some hs')
      fun no no' hno => tracks_pure ?_
    cases hno with
    | some hno => exact .branchElse he hs hno
    | none => exact .branch he hs
  · exact tracks_pure (.branch he hs)

theorem tracks_whileStatement :
    TracksStmt T (whileStatement expr inner) (whileStatement expr inner) :=
  (tracks_expect hT _ _).bind fun _ _ _ => Tracks.bind h fun _ _ he =>
    (tracks_expect hT _ _).bind fun _ _ _ => Tracks.bind hinner fun _ _ hs =>
    tracks_pure (.loop he hs)

theorem tracks_forStatement : TracksStmt T (forStatement expr inner) (forStatement expr inner) := by
  refine (tracks_expect hT _ _).bind fun _ _ _ => ?_
  -- the clauses behind the initializer
  have hclauses : ∀ i i', Option.Rel (LikeStmt T NoLabel) i i' → TracksStmt T
      (do
        let condition ← if ← check .semicolon then pure none else some <$> expr
        let _ ← expect .semicolon .semicolonAfterLoopCondition
        let increment ← if ← check .rightParen then pure none else some <$> expr
        let _ ← expect .rightParen .parenAfterForClauses
        return forLoop i condition increment (← inner))
      (do
        let condition ← if ← check .semicolon then pure none else some <$> expr
        let _ ← expect .semicolon .semicolonAfterLoopCondition
        let increment ← if ← check .rightParen then pure none else some <$> expr
        let _ ← expect .rightParen .parenAfterForClauses
        return forLoop i' condition increment (← inner)) := by
    intro i i' hi
    refine tracks_perhaps hT h _ fun c c' hc => (tracks_expect hT _ _).bind fun _ _ _ =>
      tracks_perhaps hT h _ fun n n' hn => (tracks_expect hT _ _).bind fun _ _ _ =>
      Tracks.bind hinner fun s s' hs => tracks_pure ?_
    exact like_forLoop hi hc hn hs
  refine (tracks_accept hT _).bind ?_
  rintro o o' (_ | _)
  · exact hclauses none none .none
  refine (tracks_accept hT _).bind ?_
  rintro o o' (_ | _)
  · exact (Tracks.map (tracks_varDeclaration hT h) fun _ _ hs => .some hs).bind hclauses
  · exact (Tracks.map (tracks_expressionStatement hT h) fun _ _ hs => .some hs).bind hclauses

end Statements

section Bodies

variable (hT : Lookalike T) {inner : Parser (Option RawStmt)}
  (h : Tracks T (Option.Rel (LikeStmt T NoLabel)) inner inner)
include hT h

omit hT h in
theorem forall₂_reduceOption {os : List (Option α)} {os' : List (Option β)} {R : α → β → Prop}
    (h : List.Forall₂ (Option.Rel R) os os') :
    List.Forall₂ R os.reduceOption os'.reduceOption := by
  induction h with
  | nil => exact .nil
  | cons ho _ ih =>
    cases ho with
    | some h => exact .cons h ih
    | none => exact ih

theorem tracks_block :
    Tracks T (List.Forall₂ (LikeStmt T NoLabel)) (block size inner) (block size inner) := by
  have hitem : Tracks T (Option.Rel (Option.Rel (LikeStmt T NoLabel))) (blockItem inner)
      (blockItem inner) := by
    refine tracks_peek.bind ?_
    rintro o o' (ht | _)
    · dsimp only
      rw [hT.kind ht]
      split
      · exact tracks_pure .none
      · exact Tracks.map h fun _ _ hs => .some hs
    · exact tracks_pure .none
  exact (tracks_many hitem size).bind fun body body' hbody =>
    (tracks_expect hT _ _).bind fun _ _ _ => tracks_pure (forall₂_reduceOption hbody)

theorem tracks_function : TracksStmt T (function size inner) (function size inner) := by
  refine (tracks_expect hT _ _).bind fun name name' hname =>
    (tracks_expect hT _ _).bind fun _ _ _ => ?_
  have hbody : ∀ ps ps', List.Forall₂ T ps ps' → TracksStmt T
      (do
        let _ ← expect .rightParen .parenAfterParameters
        let _ ← expect .leftBrace .braceBeforeBody
        return Stmt.function name ps (← block size inner))
      (do
        let _ ← expect .rightParen .parenAfterParameters
        let _ ← expect .leftBrace .braceBeforeBody
        return Stmt.function name' ps' (← block size inner)) := fun ps ps' hps =>
    (tracks_expect hT _ _).bind fun _ _ _ => (tracks_expect hT _ _).bind fun _ _ _ =>
      (tracks_block hT h).bind fun _ _ hss => tracks_pure (.declared hname hps hss)
  refine (tracks_check hT _).bind fun b b' hb => ?_
  subst hb
  cases b with
  | true => exact hbody [] [] .nil
  | false => exact (tracks_commaSeparated hT (tracks_expect hT _ _) _ size).bind hbody

end Bodies

theorem Tracks.recovering {p : Parser RawStmt} (hloud : Loud p) (h : TracksStmt T p p) :
    Tracks T (Option.Rel (LikeStmt T NoLabel)) (recovering p) (recovering p) := by
  intro ts ts' o rest hts hgives
  obtain ⟨s, rfl, hs⟩ := (gives_recovering hloud).1 hgives
  obtain ⟨s', rest', hs', hlike, hrest⟩ := h hts hs
  exact ⟨some s', rest', (gives_recovering hloud).2 ⟨s', rfl, hs'⟩, .some hlike, hrest⟩

theorem tracks_statement_and_declaration (hT : Lookalike T) (budget : Nat) :
    TracksStmt T (statement size budget) (statement size budget) ∧
      Tracks T (Option.Rel (LikeStmt T NoLabel)) (declaration size budget)
        (declaration size budget) := by
  induction budget using Nat.strongRecOn with
  | _ budget ih =>
    refine ⟨?_, ?_⟩
    · obtain hlt | ⟨budget, rfl⟩ := lt_or_eq_add 2 budget
      · rw [statement_of_lt hlt]
        exact tracks_of_not_gives fun _ _ _ => not_gives_tooDeep
      have hexpr : TracksExpr T (expression size budget) (expression size budget) :=
        tracks_expression hT budget
      obtain ⟨hinner, hdeclaration⟩ := ih budget (by omega)
      have hstatement := tracks_expressionStatement hT hexpr
      refine tracks_of_eq fun ts ts' hts => ?_
      cases hts with
      | nil => exact ⟨_, _, [], [], hstatement, .nil, rfl, rfl⟩
      | @cons t t' ts ts' ht hts =>
        have hkind := hT.kind ht
        obtain ⟨kind, lexeme, literal, line⟩ := t
        obtain ⟨kind', lexeme', literal', line'⟩ := t'
        obtain rfl : kind = kind' := hkind
        cases kind with
        | keyword word =>
          cases word with
          | forWord =>
            exact ⟨_, _, ts, ts', tracks_forStatement hT hexpr hinner, hts, rfl, rfl⟩
          | ifWord => exact ⟨_, _, ts, ts', tracks_ifStatement hT hexpr hinner, hts, rfl, rfl⟩
          | printWord => exact ⟨_, _, ts, ts', tracks_printStatement hT hexpr, hts, rfl, rfl⟩
          | returnWord => exact ⟨_, _, ts, ts', tracks_returnStatement hT hexpr ht, hts, rfl, rfl⟩
          | whileWord =>
            exact ⟨_, _, ts, ts', tracks_whileStatement hT hexpr hinner, hts, rfl, rfl⟩
          | _ => exact ⟨_, _, _, _, hstatement, .cons ht hts, rfl, rfl⟩
        | leftBrace =>
          have hblock : TracksStmt T (Stmt.block <$> block size (declaration size budget))
              (Stmt.block <$> block size (declaration size budget)) :=
            (tracks_block hT hdeclaration).map fun ss ss' hss => LikeStmt.braced hss
          exact ⟨_, _, ts, ts', hblock, hts, rfl, rfl⟩
        | _ => exact ⟨_, _, _, _, hstatement, .cons ht hts, rfl, rfl⟩
    · obtain hlt | ⟨budget, rfl⟩ := lt_or_eq_add 3 budget
      · rw [declaration_of_lt hlt]
        exact tracks_of_not_gives fun _ _ _ => not_gives_tooDeep
      rw [declaration]
      refine Tracks.recovering (loud_declarationBody size budget) ?_
      refine (tracks_accept hT _).bind ?_
      rintro o o' (_ | _)
      · exact tracks_function hT (ih budget (by omega)).2
      refine (tracks_accept hT _).bind ?_
      rintro o o' (_ | _)
      · exact tracks_varDeclaration hT (tracks_expression hT (budget + 1))
      · exact (ih (budget + 2) (by omega)).1

/-! ## Programs -/

/-- The declarations of a program, from tokens related to its own. -/
theorem tracks_declarations (hT : Lookalike T) (budget : Nat) :
    Tracks T (List.Forall₂ (LikeStmt T NoLabel)) (declarations size budget)
      (declarations size budget) := by
  have hitem : Tracks T (Option.Rel (Option.Rel (LikeStmt T NoLabel)))
      (topItem (declaration size budget)) (topItem (declaration size budget)) := by
    refine tracks_peek.bind ?_
    rintro o o' (_ | _)
    · exact Tracks.map (tracks_statement_and_declaration hT budget).2 fun _ _ hs => .some hs
    · exact tracks_pure .none
  exact (tracks_many hitem size).map fun _ _ => forall₂_reduceOption

/-- Where the declarations are found, nothing is complained about. -/
theorem parse_of_gives {limit : Nat} {ts rest : List Token} {ss : List RawStmt}
    (h : Gives (declarations ts.length limit) ts ss rest) : parse limit ts = ⟨ss, []⟩ := by
  unfold parse
  obtain ⟨ss', -, heq⟩ | ⟨⟨u, herr⟩, -⟩ := echoes_program ts.length limit ts
  · rw [heq, h]
    rfl
  · rw [h] at herr
    cases herr

/-- Tokens that differ in their lines only are read as trees that do. -/
theorem parse_like (hT : Lookalike T) {limit : Nat} {ts us : List Token}
    (hts : List.Forall₂ T ts us) (h : (parse limit ts).complaints = []) :
    (parse limit us).complaints = [] ∧
      List.Forall₂ (LikeStmt T NoLabel) (parse limit ts).statements
        (parse limit us).statements := by
  obtain ⟨rest, hgives⟩ := complaints_eq_nil_iff.1 h
  obtain ⟨ss, rest', hgives', hlike, -⟩ := tracks_declarations hT limit hts hgives
  rw [hts.length_eq] at hgives'
  rw [parse_of_gives hgives']
  exact ⟨rfl, hlike⟩

/-- No program starts with an `else`. -/
theorem not_else_of_quiet {limit : Nat} {ts : List Token} (h : (parse limit ts).complaints = []) :
    ¬ StartsWith (.keyword .elseWord) ts := by
  rintro ⟨t, rest, rfl, ht⟩
  obtain ⟨_, hgives⟩ := complaints_eq_nil_iff.1 h
  exact (reads_head (gives_declarations hgives) t rfl).2 ht

end Scriptling.Parser
