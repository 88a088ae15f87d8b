-- Acceptance: a program is read without a complaint exactly if the grammar allows it. Then all of
-- its tokens were taken, and the statements are those of its reading.
import Scriptling.Proofs.Grammar.Completeness
import Scriptling.Proofs.Grammar.Regular

namespace Scriptling.Parser

open Grammar

/-! ## How statements start -/

/-- The words with which a declaration starts that is no statement. -/
def DeclarationWord (k : Kind) : Prop := k = .keyword .functionWord ∨ k = .keyword .varWord

/-- Tokens that can stand first in a statement or in a declaration. -/
def StartsClause (k : Kind) : Prop := k ≠ .rightBrace ∧ k ≠ .keyword .elseWord

def HeadOf : Clause → List Token → Prop
  | .declarations, ts => ∀ t ∈ ts.head?, StartsClause t.kind
  | .declaration, ts => ∃ t us, ts = t :: us ∧ StartsClause t.kind
  | .varDecl, ts => ∃ t us, ts = t :: us ∧ t.kind = .keyword .varWord
  | .statement _, ts => ∃ t us, ts = t :: us ∧ StartsClause t.kind ∧ ¬ DeclarationWord t.kind
  | .exprStmt, ts => ∃ t us, ts = t :: us ∧ t.kind ∈ expressionHeads
  | .block, ts => ∃ t us, ts = t :: us ∧ t.kind = .leftBrace
  | .initializer, _ => True

theorem expressionHeads_starts : ∀ k ∈ expressionHeads,
    (k ≠ .rightBrace ∧ k ≠ .keyword .elseWord) ∧
      ¬ (k = .keyword .functionWord ∨ k = .keyword .varWord) := by
  decide

theorem reads_head {p : Clause} {ts : List Token} {t : p.Tree} (h : Reads p ts t) :
    HeadOf p ts := by
  induction h with
  | noDeclaration => exact fun t ht => absurd ht (by simp)
  | declarations _ _ ih =>
    obtain ⟨t, us, rfl, ht⟩ := ih
    intro t' ht'
    cases ht'
    exact ht
  | function hk => exact ⟨_, _, rfl, by rw [hk]; simp [StartsClause]⟩
  | varDecl _ ih =>
    obtain ⟨t, us, rfl, ht⟩ := ih
    exact ⟨t, us, rfl, by rw [ht]; simp [StartsClause]⟩
  | statement _ ih =>
    obtain ⟨t, us, rfl, ht, -⟩ := ih
    exact ⟨t, us, rfl, ht⟩
  | plainVar hk => exact ⟨_, _, rfl, hk⟩
  | initializedVar hk => exact ⟨_, _, rfl, hk⟩
  | exprStmt _ ih =>
    obtain ⟨t, us, rfl, ht⟩ := ih
    exact ⟨t, us, rfl, expressionHeads_starts _ ht⟩
  | expression value _ =>
    obtain ⟨t, us, rfl, ht⟩ := derives_head value
    exact ⟨t, _, rfl, ht⟩
  | noInitializer | varInitializer | exprInitializer => trivial
  | forLoop hk | ifThen hk | ifElse hk | print hk | giveBack hk | whileLoop hk =>
    exact ⟨_, _, rfl, by rw [hk]; simp [StartsClause, DeclarationWord]⟩
  | block _ ih =>
    obtain ⟨t, us, rfl, ht⟩ := ih
    exact ⟨t, us, rfl, by rw [ht]; simp [StartsClause, DeclarationWord]⟩
  | braces hk => exact ⟨_, _, rfl, hk⟩

/-! ## Statements are read as they should be -/

/-- Items that stand one after the other. -/
inductive InTurn {α : Type} (item : List Token → α → Prop) : List Token → List α → Prop
  | nil : InTurn item [] []
  | cons {ts us : List Token} {a : α} {as : List α} (h : item ts a) (rest : InTurn item us as) :
      InTurn item (ts ++ us) (a :: as)

def CompleteDeclaration (ts : List Token) (s : RawStmt) : Prop :=
  HeadOf .declaration ts ∧ ∀ size budget rest, (ts ++ rest).length ≤ size →
    ¬ StartsWith (.keyword .elseWord) rest →
    Takes (declaration size budget) (ts ++ rest) (some s) rest

/-- What stands first between the parentheses of a `for`, and then the rest of it. -/
def initializerThen (expr : Parser RawExpr) (f : Option RawStmt → Parser RawStmt) :
    Parser RawStmt := do
  match ← accept .semicolon with
  | some _ => pure none >>= f
  | none => match ← acceptWord .varWord with
    | some _ => (some <$> varDeclaration expr) >>= f
    | none => (some <$> expressionStatement expr) >>= f

/-- Tokens that are a clause of a program are read as they should be. -/
def CompleteClause : (p : Clause) → List Token → p.Tree → Prop
  | .declarations, ts, ss => InTurn CompleteDeclaration ts ss
  | .declaration, ts, s => CompleteDeclaration ts s
  | .varDecl, ts, s => ∃ word us, ts = word :: us ∧ word.kind = .keyword .varWord ∧
      ∀ size budget rest, (us ++ rest).length ≤ size →
        Takes (varDeclaration (expression size budget)) (us ++ rest) s rest
  | .statement opened, ts, s => ∀ size budget rest, (ts ++ rest).length ≤ size →
      (opened = true → ¬ StartsWith (.keyword .elseWord) rest) →
      Takes (statement size budget) (ts ++ rest) s rest
  | .exprStmt, ts, s => HeadOf .exprStmt ts ∧ ∀ size budget rest, (ts ++ rest).length ≤ size →
      Takes (expressionStatement (expression size budget)) (ts ++ rest) s rest
  | .block, ts, ss => ∃ opening us, ts = opening :: us ∧ opening.kind = .leftBrace ∧
      ∀ size budget rest, (us ++ rest).length ≤ size →
        Takes (block size (declaration size budget)) (us ++ rest) ss rest
  | .initializer, ts, i => ∀ size budget rest f, (ts ++ rest).length ≤ size →
      Leads (initializerThen (expression size budget) f) (ts ++ rest) (f i) rest

/-- An expression that is left out where a token of the kind `k` comes, and then `f`. -/
theorem leads_perhaps {ts rest : List Token} {e : Option RawExpr} (h : Perhaps ts e) {k : Kind}
    (hk : k ∉ expressionHeads) (hstart : StartsWith k rest) (hends : Ends rest) {β : Type}
    (f : Option RawExpr → Parser β) {size budget : Nat} (hsize : (ts ++ rest).length ≤ size) :
    Leads (check k >>= fun stop => if stop = true then pure none >>= f else
      (some <$> expression size budget) >>= f) (ts ++ rest) (f e) rest := by
  cases h with
  | absent =>
    refine (takes_check true (by simpa using hstart)).bind ?_
    exact Takes.bind (leads_refl _ _) (leads_refl _ _)
  | present h =>
    have hno : ¬ StartsWith k (ts ++ rest) := derives_not_startsWith h hk
    refine (takes_check false (by simpa using hno)).bind ?_
    exact ((derives_complete h size budget rest hsize hends).map some).bind (leads_refl _ _)

/-- The tokens are not told for a statement of another kind. -/
theorem statement_of_expressionHead {size budget : Nat} {t : Token} {rest : List Token}
    (h : t.kind ∈ expressionHeads) :
    statement size (budget + 2) (t :: rest) =
      expressionStatement (expression size budget) (t :: rest) := by
  have hno : ∀ k ∈ expressionHeads, k ≠ .keyword .forWord ∧ k ≠ .keyword .ifWord ∧
      k ≠ .keyword .printWord ∧ k ≠ .keyword .returnWord ∧ k ≠ .keyword .whileWord ∧
      k ≠ .leftBrace := by decide
  obtain ⟨h1, h2, h3, h4, h5, h6⟩ := hno _ h
  rw [statement_cons]
  simp only [h1, h2, h3, h4, h5, h6, if_false]

/-- A statement with a word of its own is read behind it. -/
theorem takes_statement {size : Nat} {t : Token} {ts rest : List Token} {s : RawStmt}
    (h : ∀ budget, ∃ p, statement size (budget + 2) (t :: ts) = p ts ∧ Takes p ts s rest)
    (budget : Nat) : Takes (statement size budget) (t :: ts) s rest := by
  obtain hlt | ⟨budget, rfl⟩ := lt_or_eq_add 2 budget
  · rw [statement_of_lt hlt]
    exact leads_tooDeep _ _ _
  obtain ⟨p, heq, hp⟩ := h budget
  unfold Takes Leads Deep
  rw [heq]
  exact hp

/-- Declarations one after the other, up to a token that stops them. -/
theorem takes_many {size budget : Nat} {step : Parser (Option (Option RawStmt))}
    {rest : List Token} (hstep : ∀ ts, HeadOf .declaration ts →
      step ts = (some <$> declaration size budget) ts)
    (hend : Takes step rest none rest) (hrest : ¬ StartsWith (.keyword .elseWord) rest) {n : Nat}
    {ts : List Token} {ss : List RawStmt} (h : InTurn CompleteDeclaration ts ss)
    (hsize : (ts ++ rest).length ≤ size) (hn : ts.length ≤ n) :
    Takes (many step n) (ts ++ rest) (ss.map some) rest := by
  induction h generalizing n with
  | nil =>
    cases n with
    | zero => exact leads_refl _ _
    | succ n => exact hend.bind (leads_refl _ _)
  | @cons ts us s ss hs hss ih =>
    obtain ⟨⟨t, vs, rfl, ht⟩, htakes⟩ := hs
    simp only [List.append_assoc, List.cons_append, List.length_append, List.length_cons]
      at hsize hn ⊢
    obtain ⟨n, rfl⟩ : ∃ m, n = m + 1 := ⟨n - 1, by omega⟩
    -- what follows is another declaration or the end, so no `else`
    have helse : ¬ StartsWith (.keyword .elseWord) (us ++ rest) := by
      cases hss with
      | nil => exact hrest
      | cons hs' _ =>
        obtain ⟨⟨t', vs', rfl, ht'⟩, -⟩ := hs'
        exact not_startsWith_cons ht'.2 _
    have hfirst : Takes step (t :: (vs ++ (us ++ rest))) (some (some s)) (us ++ rest) := by
      unfold Takes Leads Deep
      rw [hstep _ ⟨t, _, rfl, ht⟩]
      exact (htakes size budget (us ++ rest) (by simp; omega) helse).map some
    refine hfirst.bind (Takes.bind (ih (by simp; omega) (by omega)) (leads_refl _ _))

/-- One turn of a block. -/
def blockItem (inner : Parser (Option RawStmt)) : Parser (Option (Option RawStmt)) := do
  match ← peek? with
  | none => return none
  | some t => if t.kind = .rightBrace then return none else some <$> inner

theorem blockItem_cons {inner : Parser (Option RawStmt)} {t : Token} {us : List Token} :
    blockItem inner (t :: us) =
      (if t.kind = .rightBrace then pure none else some <$> inner : Parser _) (t :: us) := rfl

theorem takes_block {size budget : Nat} {closing : Token} {ts rest : List Token}
    {ss : List RawStmt} (h : InTurn CompleteDeclaration ts ss)
    (hclosing : closing.kind = .rightBrace) (hsize : (ts ++ closing :: rest).length ≤ size) :
    Takes (block size (declaration size budget)) (ts ++ closing :: rest) ss rest := by
  have hstep : ∀ ts, HeadOf .declaration ts →
      blockItem (declaration size budget) ts = (some <$> declaration size budget) ts := by
    rintro _ ⟨t, us, rfl, ht, -⟩
    rw [blockItem_cons]
    simp only [ht, if_false]
  have hend : Takes (blockItem (declaration size budget)) (closing :: rest) none
      (closing :: rest) := by
    refine Or.inl ?_
    rw [blockItem_cons]
    simp only [hclosing, if_true]
  have helse : ¬ StartsWith (.keyword .elseWord) (closing :: rest) :=
    not_startsWith_cons (by simp [hclosing]) rest
  have hmany := takes_many hstep hend helse h hsize
    (n := size) (by rw [List.length_append] at hsize; omega)
  refine Takes.bind hmany ((takes_expect _ hclosing).bind ?_)
  rw [reduceOption_map_some]
  exact leads_refl _ _

/-- Parameters up to the closing parenthesis, and then `f`. -/
theorem leads_parameters {size : Nat} {closing : Token} {ps names rest : List Token}
    (h : Parameters ps names) (hclosing : closing.kind = .rightParen)
    (hsize : (ps ++ closing :: rest).length ≤ size) {β : Type} (f : List Token → Parser β) :
    Leads (check .rightParen >>= fun stop => if stop = true then pure [] >>= f else
      commaSeparated size (expect .identifier .parameterName) .tooManyParameters >>= f)
      (ps ++ closing :: rest) (f names) (closing :: rest) := by
  have hend : StartsWith .rightParen (closing :: rest) := ⟨closing, rest, rfl, hclosing⟩
  cases h with
  | none =>
    refine (takes_check true (by simpa using hend)).bind ?_
    exact Takes.bind (leads_refl _ _) (leads_refl _ _)
  | some hnames hmost =>
    have hno : ¬ StartsWith .rightParen (ps ++ closing :: rest) := by
      cases hnames with
      | last h | more h =>
        obtain ⟨rfl, hk⟩ := h
        exact not_startsWith_cons (by simp [hk]) _
    have hitem : ∀ ts t rest, IsName ts t → (ts ++ rest).length ≤ size →
        (StartsWith .comma rest ∨ StartsWith .rightParen rest) →
        Takes (expect .identifier .parameterName) (ts ++ rest) t rest := by
      rintro _ t rest ⟨rfl, hk⟩ _ _
      exact takes_expect _ hk
    refine (takes_check false (by simpa using hno)).bind ?_
    exact (takes_commaSeparated hitem _ hnames hsize hmost hend).bind (leads_refl _ _)

/-- An expression and the semicolon behind it, and then `f`. -/
theorem leads_value {size budget : Nat} {semicolon : Token} {ts rest : List Token} {e : RawExpr}
    (problem : Problem) (h : Derives .expression ts e) (hsemicolon : semicolon.kind = .semicolon)
    (hsize : (ts ++ semicolon :: rest).length ≤ size) {β : Type} (f : RawExpr → Parser β) :
    Leads (expression size budget >>= fun e => expect .semicolon problem >>= fun _ => f e)
      (ts ++ semicolon :: rest) (f e) rest := by
  have hvalue := derives_complete h size budget (semicolon :: rest) hsize
    (ends_of_kind (by simp [hsemicolon]))
  exact hvalue.bind ((takes_expect _ hsemicolon).bind (leads_refl _ _))

/-- A condition in parentheses, and then `f`. -/
theorem leads_condition {size budget : Nat} {opening closing : Token} {ts rest : List Token}
    {e : RawExpr} (problem problem' : Problem) (hopening : opening.kind = .leftParen)
    (h : Derives .expression ts e) (hclosing : closing.kind = .rightParen)
    (hsize : (ts ++ closing :: rest).length ≤ size) {β : Type} (f : RawExpr → Parser β) :
    Leads (expect .leftParen problem >>= fun _ => expression size budget >>= fun e =>
      expect .rightParen problem' >>= fun _ => f e)
      (opening :: (ts ++ closing :: rest)) (f e) rest := by
  have hcondition := derives_complete h size budget (closing :: rest) hsize
    (ends_of_kind (by simp [hclosing]))
  refine (takes_expect _ hopening).bind (hcondition.bind ?_)
  exact (takes_expect _ hclosing).bind (leads_refl _ _)

theorem complete_function {word name opening closing : Token} {ps names us : List Token}
    {ss : List RawStmt} (hword : word.kind = .keyword .functionWord)
    (hname : name.kind = .identifier) (hopening : opening.kind = .leftParen)
    (hparameters : Parameters ps names) (hclosing : closing.kind = .rightParen)
    (hbody : CompleteClause .block us ss) :
    CompleteClause .declaration (word :: name :: opening :: ps ++ closing :: us)
      (.function name names ss) := by
  refine ⟨⟨word, _, rfl, by rw [hword]; simp [StartsClause]⟩, fun size budget rest hsize _ => ?_⟩
  obtain hlt | ⟨budget, rfl⟩ := lt_or_eq_add 3 budget
  · rw [declaration_of_lt hlt]
    exact leads_tooDeep _ _ _
  obtain ⟨brace, vs, rfl, hbrace, hblock⟩ := hbody
  simp only [List.append_assoc, List.cons_append, List.length_append, List.length_cons]
    at hsize ⊢
  rw [declaration]
  refine Takes.recovering ((takes_accept hword).bind ?_)
  refine (takes_expect _ hname).bind ((takes_expect _ hopening).bind ?_)
  refine (leads_parameters hparameters hclosing (by simp; omega) _).trans ?_
  refine (takes_expect _ hclosing).bind ((takes_expect _ hbrace).bind ?_)
  exact (hblock size budget rest (by simp; omega)).bind (leads_refl _ _)

theorem complete_varDecl {ts : List Token} {s : RawStmt} (h : CompleteClause .varDecl ts s) :
    CompleteClause .declaration ts s := by
  obtain ⟨word, us, rfl, hword, htakes⟩ := h
  refine ⟨⟨word, us, rfl, by rw [hword]; simp [StartsClause]⟩, fun size budget rest hsize _ => ?_⟩
  obtain hlt | ⟨budget, rfl⟩ := lt_or_eq_add 3 budget
  · rw [declaration_of_lt hlt]
    exact leads_tooDeep _ _ _
  simp only [List.cons_append, List.length_cons] at hsize ⊢
  rw [declaration]
  refine Takes.recovering ((takes_accept_none (not_startsWith_cons (by simp [hword]) _)).bind ?_)
  exact (takes_accept hword).bind (htakes size (budget + 1) rest (by omega))

theorem complete_statement {opened : Bool} {ts : List Token} {s : RawStmt}
    (hhead : HeadOf (.statement opened) ts) (h : CompleteClause (.statement opened) ts s) :
    CompleteClause .declaration ts s := by
  obtain ⟨t, us, rfl, hstarts, hword⟩ := hhead
  refine ⟨⟨t, us, rfl, hstarts⟩, fun size budget rest hsize helse => ?_⟩
  obtain hlt | ⟨budget, rfl⟩ := lt_or_eq_add 3 budget
  · rw [declaration_of_lt hlt]
    exact leads_tooDeep _ _ _
  rw [declaration]
  have hno : ∀ k, DeclarationWord k → ¬ StartsWith k (t :: us ++ rest) := by
    intro k hk
    refine not_startsWith_cons ?_ _
    rintro rfl
    exact hword hk
  refine Takes.recovering ((takes_accept_none (hno _ (Or.inl rfl))).bind ?_)
  refine (takes_accept_none (hno _ (Or.inr rfl))).bind ?_
  exact h size (budget + 2) rest hsize fun _ => helse

theorem complete_plainVar {word name semicolon : Token} (hword : word.kind = .keyword .varWord)
    (hname : name.kind = .identifier) (hsemicolon : semicolon.kind = .semicolon) :
    CompleteClause .varDecl [word, name, semicolon] (.var name none) := by
  refine ⟨word, [name, semicolon], rfl, hword, fun size budget rest hsize => ?_⟩
  refine (takes_expect _ hname).bind ?_
  refine (takes_accept_none (not_startsWith_cons (by simp [hsemicolon]) rest)).bind ?_
  exact Takes.bind (leads_refl _ _) ((takes_expect _ hsemicolon).bind (leads_refl _ _))

theorem complete_initializedVar {word name equals semicolon : Token} {ts : List Token}
    {e : RawExpr} (hword : word.kind = .keyword .varWord) (hname : name.kind = .identifier)
    (hequals : equals.kind = .equal) (value : Derives .expression ts e)
    (hsemicolon : semicolon.kind = .semicolon) :
    CompleteClause .varDecl (word :: name :: equals :: ts ++ [semicolon]) (.var name (some e)) := by
  refine ⟨word, name :: equals :: ts ++ [semicolon], rfl, hword, fun size budget rest hsize => ?_⟩
  simp only [List.append_assoc, List.cons_append, List.nil_append, List.length_append,
    List.length_cons] at hsize ⊢
  refine (takes_expect _ hname).bind ((takes_accept hequals).bind ?_)
  have hvalue := derives_complete value size budget (semicolon :: rest) (by simp; omega)
    (ends_of_kind (by simp [hsemicolon]))
  exact (hvalue.map some).bind ((takes_expect _ hsemicolon).bind (leads_refl _ _))

theorem complete_exprStmt {ts : List Token} {s : RawStmt} (h : CompleteClause .exprStmt ts s) :
    CompleteClause (.statement false) ts s := by
  intro size budget rest hsize _
  obtain hlt | ⟨budget, rfl⟩ := lt_or_eq_add 2 budget
  · rw [statement_of_lt hlt]
    exact leads_tooDeep _ _ _
  obtain ⟨⟨t, us, rfl, ht⟩, htakes⟩ := h
  unfold Takes Leads Deep
  rw [List.cons_append, statement_of_expressionHead ht]
  exact htakes size budget rest hsize

theorem complete_expression {semicolon : Token} {ts : List Token} {e : RawExpr}
    (value : Derives .expression ts e) (hsemicolon : semicolon.kind = .semicolon) :
    CompleteClause .exprStmt (ts ++ [semicolon]) (.expression e) := by
  refine ⟨reads_head (.expression value hsemicolon), fun size budget rest hsize => ?_⟩
  simp only [List.append_assoc, List.cons_append, List.nil_append] at hsize ⊢
  exact leads_value _ value hsemicolon hsize _

theorem complete_varInitializer {ts : List Token} {s : RawStmt}
    (h : CompleteClause .varDecl ts s) : CompleteClause .initializer ts (some s) := by
  intro size budget rest f hsize
  obtain ⟨word, us, rfl, hword, htakes⟩ := h
  simp only [List.cons_append, List.length_cons] at hsize ⊢
  refine (takes_accept_none (not_startsWith_cons (by simp [hword]) _)).bind ?_
  refine (takes_accept hword).bind ?_
  exact ((htakes size budget rest (by omega)).map some).bind (leads_refl _ _)

theorem complete_exprInitializer {ts : List Token} {s : RawStmt}
    (h : CompleteClause .exprStmt ts s) : CompleteClause .initializer ts (some s) := by
  intro size budget rest f hsize
  obtain ⟨⟨t, us, rfl, ht⟩, htakes⟩ := h
  have hheads : ∀ k ∈ expressionHeads, k ≠ .semicolon ∧ k ≠ .keyword .varWord := by decide
  obtain ⟨hsemicolon, hvar⟩ := hheads _ ht
  refine (takes_accept_none (not_startsWith_cons hsemicolon _)).bind ?_
  refine (takes_accept_none (not_startsWith_cons hvar _)).bind ?_
  exact ((htakes size budget rest hsize).map some).bind (leads_refl _ _)

theorem complete_forLoop {opened : Bool} {word opening semicolon closing : Token}
    {is cs ns ts : List Token} {i : Option RawStmt} {c n : Option RawExpr} {s : RawStmt}
    (hword : word.kind = .keyword .forWord) (hopening : opening.kind = .leftParen)
    (hi : CompleteClause .initializer is i) (hc : Perhaps cs c)
    (hsemicolon : semicolon.kind = .semicolon) (hn : Perhaps ns n)
    (hclosing : closing.kind = .rightParen) (hbody : CompleteClause (.statement opened) ts s) :
    CompleteClause (.statement opened)
      (word :: opening :: is ++ cs ++ semicolon :: ns ++ closing :: ts) (forLoop i c n s) := by
  intro size budget rest hsize helse
  simp only [List.append_assoc, List.cons_append, List.length_append, List.length_cons]
    at hsize ⊢
  refine takes_statement (fun budget => ⟨_, by rw [statement_cons, if_pos hword], ?_⟩) budget
  refine (takes_expect _ hopening).bind ?_
  refine (hi size budget _ _ (by simp; omega)).trans ?_
  refine (leads_perhaps hc (by decide) ⟨semicolon, _, rfl, hsemicolon⟩
    (ends_of_kind (by simp [hsemicolon])) _ (by simp; omega)).trans ?_
  refine (takes_expect _ hsemicolon).bind ?_
  refine (leads_perhaps hn (by decide) ⟨closing, _, rfl, hclosing⟩
    (ends_of_kind (by simp [hclosing])) _ (by simp; omega)).trans ?_
  refine (takes_expect _ hclosing).bind ?_
  exact (hbody size budget rest (by simp; omega) helse).bind (leads_refl _ _)

/-- Without an `else`, whatever statement comes behind it may not start with one. -/
theorem complete_ifThen {opened : Bool} {word opening closing : Token} {cs ts : List Token}
    {e : RawExpr} {s : RawStmt} (hword : word.kind = .keyword .ifWord)
    (hopening : opening.kind = .leftParen) (hcondition : Derives .expression cs e)
    (hclosing : closing.kind = .rightParen) (hyes : CompleteClause (.statement opened) ts s) :
    CompleteClause (.statement true) (word :: opening :: cs ++ closing :: ts)
      (.branch e s none) := by
  intro size budget rest hsize helse
  simp only [List.append_assoc, List.cons_append, List.length_append, List.length_cons]
    at hsize ⊢
  refine takes_statement (fun budget => ⟨_, by
    rw [statement_cons, if_neg (by simp [hword]), if_pos hword], ?_⟩) budget
  refine (leads_condition _ _ hopening hcondition hclosing (by simp; omega) _).trans ?_
  refine (hyes size budget rest (by simp; omega) fun _ => helse rfl).bind ?_
  exact (takes_accept_none (helse rfl)).bind (Takes.bind (leads_refl _ _) (leads_refl _ _))

theorem complete_ifElse {opened : Bool} {word opening closing other : Token}
    {cs ts us : List Token} {e : RawExpr} {s s' : RawStmt}
    (hword : word.kind = .keyword .ifWord) (hopening : opening.kind = .leftParen)
    (hcondition : Derives .expression cs e) (hclosing : closing.kind = .rightParen)
    (hyes : CompleteClause (.statement false) ts s) (hother : other.kind = .keyword .elseWord)
    (hno : CompleteClause (.statement opened) us s') :
    CompleteClause (.statement opened) (word :: opening :: cs ++ closing :: ts ++ other :: us)
      (.branch e s (some s')) := by
  intro size budget rest hsize helse
  simp only [List.append_assoc, List.cons_append, List.length_append, List.length_cons]
    at hsize ⊢
  refine takes_statement (fun budget => ⟨_, by
    rw [statement_cons, if_neg (by simp [hword]), if_pos hword], ?_⟩) budget
  refine (leads_condition _ _ hopening hcondition hclosing (by simp; omega) _).trans ?_
  refine (hyes size budget _ (by simp; omega) (by simp)).bind ?_
  refine (takes_accept hother).bind ?_
  exact ((hno size budget rest (by simp; omega) helse).map some).bind (leads_refl _ _)

theorem complete_print {word semicolon : Token} {ts : List Token} {e : RawExpr}
    (hword : word.kind = .keyword .printWord) (value : Derives .expression ts e)
    (hsemicolon : semicolon.kind = .semicolon) :
    CompleteClause (.statement false) (word :: ts ++ [semicolon]) (.print e) := by
  intro size budget rest hsize _
  simp only [List.append_assoc, List.cons_append, List.nil_append, List.length_append,
    List.length_cons] at hsize ⊢
  refine takes_statement (fun budget => ⟨_, by
    rw [statement_cons, if_neg (by simp [hword]), if_neg (by simp [hword]), if_pos hword], ?_⟩)
    budget
  exact leads_value _ value hsemicolon (by simp; omega) _

theorem complete_giveBack {word semicolon : Token} {ts : List Token} {e : Option RawExpr}
    (hword : word.kind = .keyword .returnWord) (value : Perhaps ts e)
    (hsemicolon : semicolon.kind = .semicolon) :
    CompleteClause (.statement false) (word :: ts ++ [semicolon]) (.giveBack word e) := by
  intro size budget rest hsize _
  simp only [List.append_assoc, List.cons_append, List.nil_append, List.length_append,
    List.length_cons] at hsize ⊢
  refine takes_statement (fun budget => ⟨_, by
    rw [statement_cons, if_neg (by simp [hword]), if_neg (by simp [hword]),
      if_neg (by simp [hword]), if_pos hword], ?_⟩) budget
  refine (leads_perhaps value (by decide) ⟨semicolon, _, rfl, hsemicolon⟩
    (ends_of_kind (by simp [hsemicolon])) _ (by simp; omega)).trans ?_
  exact (takes_expect _ hsemicolon).bind (leads_refl _ _)

theorem complete_whileLoop {opened : Bool} {word opening closing : Token} {cs ts : List Token}
    {e : RawExpr} {s : RawStmt} (hword : word.kind = .keyword .whileWord)
    (hopening : opening.kind = .leftParen) (hcondition : Derives .expression cs e)
    (hclosing : closing.kind = .rightParen) (hbody : CompleteClause (.statement opened) ts s) :
    CompleteClause (.statement opened) (word :: opening :: cs ++ closing :: ts) (.loop e s) := by
  intro size budget rest hsize helse
  simp only [List.append_assoc, List.cons_append, List.length_append, List.length_cons]
    at hsize ⊢
  refine takes_statement (fun budget => ⟨_, by
    rw [statement_cons, if_neg (by simp [hword]), if_neg (by simp [hword]),
      if_neg (by simp [hword]), if_neg (by simp [hword]), if_pos hword], ?_⟩) budget
  refine (leads_condition _ _ hopening hcondition hclosing (by simp; omega) _).trans ?_
  exact (hbody size budget rest (by simp; omega) helse).bind (leads_refl _ _)

theorem complete_block {ts : List Token} {ss : List RawStmt} (h : CompleteClause .block ts ss) :
    CompleteClause (.statement false) ts (.block ss) := by
  intro size budget rest hsize _
  obtain ⟨opening, us, rfl, hopening, htakes⟩ := h
  simp only [List.cons_append, List.length_cons] at hsize ⊢
  refine takes_statement (fun budget => ⟨_, by
    rw [statement_cons, if_neg (by simp [hopening]), if_neg (by simp [hopening]),
      if_neg (by simp [hopening]), if_neg (by simp [hopening]), if_neg (by simp [hopening]),
      if_pos hopening], ?_⟩) budget
  exact (htakes size budget rest (by omega)).bind (leads_refl _ _)

theorem complete_braces {opening closing : Token} {ts : List Token} {ss : List RawStmt}
    (hopening : opening.kind = .leftBrace) (h : CompleteClause .declarations ts ss)
    (hclosing : closing.kind = .rightBrace) :
    CompleteClause .block (opening :: ts ++ [closing]) ss := by
  refine ⟨opening, ts ++ [closing], rfl, hopening, fun size budget rest hsize => ?_⟩
  simp only [List.append_assoc, List.cons_append, List.nil_append] at hsize ⊢
  exact takes_block h hclosing hsize

theorem reads_complete {p : Clause} {ts : List Token} {t : p.Tree} (h : Reads p ts t) :
    CompleteClause p ts t := by
  induction h with
  | noDeclaration => exact .nil
  | declarations _ _ ih ih' => exact .cons ih ih'
  | function hword hname hopening hparameters hclosing _ ih =>
    exact complete_function hword hname hopening hparameters hclosing ih
  | varDecl _ ih => exact complete_varDecl ih
  | statement h ih => exact complete_statement (reads_head h) ih
  | plainVar hword hname hsemicolon => exact complete_plainVar hword hname hsemicolon
  | initializedVar hword hname hequals value hsemicolon =>
    exact complete_initializedVar hword hname hequals value hsemicolon
  | exprStmt _ ih => exact complete_exprStmt ih
  | expression value hsemicolon => exact complete_expression value hsemicolon
  | noInitializer hk =>
    intro size budget rest f _
    exact (takes_accept hk).bind (Takes.bind (leads_refl _ _) (leads_refl _ _))
  | varInitializer _ ih => exact complete_varInitializer ih
  | exprInitializer _ ih => exact complete_exprInitializer ih
  | forLoop hword hopening _ hc hsemicolon hn hclosing _ ih ih' =>
    exact complete_forLoop hword hopening ih hc hsemicolon hn hclosing ih'
  | ifThen hword hopening hcondition hclosing _ ih =>
    exact complete_ifThen hword hopening hcondition hclosing ih
  | ifElse hword hopening hcondition hclosing _ hother _ ih ih' =>
    exact complete_ifElse hword hopening hcondition hclosing ih hother ih'
  | print hword value hsemicolon => exact complete_print hword value hsemicolon
  | giveBack hword value hsemicolon => exact complete_giveBack hword value hsemicolon
  | whileLoop hword hopening hcondition hclosing _ ih =>
    exact complete_whileLoop hword hopening hcondition hclosing ih
  | block _ ih => exact complete_block ih
  | braces hopening _ hclosing ih => exact complete_braces hopening ih hclosing

/-! ## The top level -/

variable {α β : Type}

/-- `q` does what `p` does where that gives a result, and complains about the depth elsewhere. -/
def Echoes (p q : Parser α) : Prop := ∀ ts,
  (∃ a, (p ts).outcome = .ok a ∧ q ts = p ts) ∨
    (∃ u, (p ts).outcome = .error u) ∧ ∃ c ∈ (q ts).complaints, c.problem = .tooDeep

theorem echoes_pure (a : α) : Echoes (pure a) (pure a) := fun _ => Or.inl ⟨a, rfl, rfl⟩

theorem echoes_peek : Echoes peek? peek? := fun _ => Or.inl ⟨_, rfl, rfl⟩

theorem echoes_bind {p q : Parser α} {f g : α → Parser β} (h : Echoes p q)
    (hf : ∀ a, Echoes (f a) (g a)) : Echoes (p >>= f) (q >>= g) := by
  intro ts
  have hp : (p >>= f) ts = Parser.bind p f ts := rfl
  have hq : (q >>= g) ts = Parser.bind q g ts := rfl
  rw [hp, hq, Parser.bind, Parser.bind]
  obtain ⟨a, hok, heq⟩ | ⟨⟨u, herr⟩, c, hc, hdeep⟩ := h ts
  · rw [heq]
    generalize p ts = parsed at hok
    obtain ⟨outcome, rest, complaints⟩ := parsed
    subst hok
    obtain ⟨b, hb, heq'⟩ | ⟨⟨u, hu⟩, c, hc, hdeep⟩ := hf a rest
    · exact Or.inl ⟨b, hb, by simp only [heq']⟩
    · exact Or.inr ⟨⟨u, hu⟩, c, List.mem_append_right _ hc, hdeep⟩
  · generalize p ts = parsed at herr
    obtain ⟨outcome, rest, complaints⟩ := parsed
    subst herr
    refine Or.inr ⟨⟨u, rfl⟩, c, ?_, hdeep⟩
    generalize q ts = parsed at hc
    obtain ⟨outcome, rest, complaints⟩ := parsed
    cases outcome with
    | ok a => exact List.mem_append_left _ hc
    | error u => exact hc

theorem echoes_many {p q : Parser (Option α)} (h : Echoes p q) (n : Nat) :
    Echoes (many p n) (many q n) := by
  induction n with
  | zero => exact echoes_pure []
  | succ n ih =>
    refine echoes_bind h fun o => ?_
    cases o with
    | none => exact echoes_pure []
    | some a => exact echoes_bind ih fun _ => echoes_pure _

/-- A declaration that nests too deeply is complained about at the top level. -/
theorem echoes_topLevel (size budget : Nat) :
    Echoes (declaration size budget) (topLevel size budget) := by
  intro ts
  unfold topLevel
  obtain ⟨outcome, rest, complaints⟩ := declaration size budget ts
  cases outcome with
  | ok o => exact Or.inl ⟨o, rfl, rfl⟩
  | error u =>
    exact Or.inr ⟨⟨u, rfl⟩, _, List.mem_append_right _ (List.mem_singleton_self _), rfl⟩

/-- One turn at the top level. -/
def topItem (inner : Parser (Option RawStmt)) : Parser (Option (Option RawStmt)) := do
  match ← peek? with
  | none => return none
  | some _ => some <$> inner

theorem echoes_topItem {p q : Parser (Option RawStmt)} (h : Echoes p q) :
    Echoes (topItem p) (topItem q) := by
  refine echoes_bind echoes_peek fun t => ?_
  cases t with
  | none => exact echoes_pure none
  | some t => exact echoes_bind h fun _ => echoes_pure _

/-- The declarations of a program, read as they are read elsewhere. -/
def declarations (size budget : Nat) : Parser (List RawStmt) :=
  List.reduceOption <$> many (topItem (declaration size budget)) size

theorem echoes_program (size budget : Nat) :
    Echoes (declarations size budget) (program size budget) :=
  echoes_bind (echoes_many (echoes_topItem (echoes_topLevel size budget)) size)
    fun _ => echoes_pure _

theorem gives_topItem {inner : Parser (Option RawStmt)} (ts : List Token)
    (o : Option (Option RawStmt)) (rest : List Token) (h : Gives (topItem inner) ts o rest) :
    (o = none ∧ rest = ts) ∨ ∃ o', o = some o' ∧ Gives inner ts o' rest := by
  cases ts with
  | nil => exact Or.inl (gives_pure.1 h)
  | cons t us =>
    obtain ⟨o', ho', rfl⟩ := gives_map.1 h
    exact Or.inr ⟨o', rfl, ho'⟩

/-- The top level goes on while there are tokens: each declaration takes at least one. -/
theorem eq_nil_of_gives_many {size budget n : Nat} {ts rest : List Token}
    {os : List (Option RawStmt)}
    (h : Gives (many (topItem (declaration size budget)) n) ts os rest) (hn : ts.length ≤ n) :
    rest = [] := by
  induction n generalizing ts os with
  | zero =>
    obtain ⟨-, rfl⟩ := gives_pure.1 h
    exact List.length_eq_zero_iff.1 (by omega)
  | succ n ih =>
    obtain ⟨o, mid, ho, hmore⟩ := gives_bind.1 h
    cases ts with
    | nil =>
      obtain ⟨rfl, rfl⟩ := gives_pure.1 ho
      exact (gives_pure.1 hmore).2
    | cons t us =>
      obtain ⟨o', ho', rfl⟩ := gives_map.1 ho
      obtain ⟨s, used, rfl, hused, hreads⟩ :=
        (finds_statement_and_declaration size budget).2 _ _ _ ho'
      obtain ⟨u, vs, rfl, -⟩ := reads_head hreads
      obtain ⟨os', mid', hos, hpure⟩ := gives_bind.1 hmore
      obtain ⟨-, rfl⟩ := gives_pure.1 hpure
      refine ih hos ?_
      have hlength := congrArg List.length hused
      simp only [List.length_append, List.length_cons] at hlength hn
      omega

theorem gives_declarations {budget : Nat} {ts rest : List Token} {ss : List RawStmt}
    (h : Gives (declarations ts.length budget) ts ss rest) : Reads .declarations ts ss := by
  obtain ⟨os, hos, rfl⟩ := gives_map.1 h
  obtain ⟨used, ss, hused, rfl, hreads⟩ :=
    gives_many (finds_statement_and_declaration ts.length budget).2 gives_topItem hos
  rw [eq_nil_of_gives_many hos (Nat.le_refl _), List.append_nil] at hused
  rw [reduceOption_map_some, hused]
  exact hreads

theorem takes_declarations (budget : Nat) {ts : List Token} {ss : List RawStmt}
    (h : Reads .declarations ts ss) : Takes (declarations ts.length budget) ts ss [] := by
  have hstep : ∀ us, HeadOf .declaration us →
      topItem (declaration ts.length budget) us = (some <$> declaration ts.length budget) us := by
    rintro _ ⟨t, us, rfl, -⟩
    rfl
  have helse : ¬ StartsWith (.keyword .elseWord) [] := by
    rintro ⟨t, us, heq, -⟩
    cases heq
  have hend : Takes (topItem (declaration ts.length budget)) [] none [] := Or.inl rfl
  have hmany := takes_many hstep hend helse (reads_complete h) (by simp) (Nat.le_refl _)
  have hall := hmany.map List.reduceOption
  rw [reduceOption_map_some, List.append_nil] at hall
  exact hall

/-- Reading is quiet where the declarations are found, and only there. -/
theorem complaints_eq_nil_iff {limit : Nat} {ts : List Token} :
    (parse limit ts).complaints = [] ↔ ∃ rest,
      Gives (declarations ts.length limit) ts (parse limit ts).statements rest := by
  have hparse : (parse limit ts).complaints = (program ts.length limit ts).complaints := rfl
  have hstatements : (parse limit ts).statements =
      (program ts.length limit ts).outcome.toOption.getD [] := rfl
  rw [hparse, hstatements]
  obtain ⟨ss, hok, heq⟩ | ⟨⟨u, herr⟩, c, hc, hdeep⟩ := echoes_program ts.length limit ts
  · rw [heq]
    unfold Gives
    generalize declarations ts.length limit ts = parsed at hok
    obtain ⟨outcome, rest, complaints⟩ := parsed
    subst hok
    constructor
    · rintro rfl
      exact ⟨rest, rfl⟩
    · rintro ⟨rest', h⟩
      cases h
      rfl
  · constructor
    · intro h
      rw [h] at hc
      cases hc
    · rintro ⟨rest, h⟩
      rw [h] at herr
      cases herr

/-- What is read without a complaint is regular. -/
theorem parse_regular {limit : Nat} {ts : List Token} (h : (parse limit ts).complaints = []) :
    ∀ s ∈ (parse limit ts).statements, RegularStmt s := by
  obtain ⟨rest, hgives⟩ := complaints_eq_nil_iff.1 h
  exact (gives_declarations hgives).regular

/-- A program is read without a complaint exactly if the grammar allows it, unless it nests too
deeply. Then all of its tokens are in the reading, and the statements are those of the reading. -/
theorem reads_quietly_iff_isProgram (limit : Nat) (tokens : List Token)
    (h : ∀ c ∈ (parse limit tokens).complaints, c.problem ≠ .tooDeep) :
    ((parse limit tokens).complaints = [] ↔ IsProgram tokens) ∧
      ((parse limit tokens).complaints = [] →
        Reads .declarations tokens (parse limit tokens).statements) := by
  have hsound : (parse limit tokens).complaints = [] →
      Reads .declarations tokens (parse limit tokens).statements := by
    intro hquiet
    obtain ⟨rest, hgives⟩ := complaints_eq_nil_iff.1 hquiet
    exact gives_declarations hgives
  refine ⟨⟨fun hquiet => (isProgram_iff _).2 ⟨_, hsound hquiet⟩, fun hprogram => ?_⟩, hsound⟩
  obtain ⟨ss, hreads⟩ := (isProgram_iff _).1 hprogram
  obtain ⟨ss', hok, heq⟩ | ⟨⟨u, herr⟩, c, hc, hdeep⟩ := echoes_program tokens.length limit tokens
  · obtain htaken | ⟨hdeep, -⟩ := takes_declarations limit hreads
    · have hparse : (parse limit tokens).complaints =
          (program tokens.length limit tokens).complaints := rfl
      rw [hparse, heq, htaken]
      rfl
    · rw [hok] at hdeep
      cases hdeep
  · exact absurd hdeep (h c hc)

/-- Two conditions and one `else`, which belongs to the nearer of the two. -/
def danglingElse : List Token :=
  [⟨.keyword .ifWord, "if", none, 1⟩, ⟨.leftParen, "(", none, 1⟩, ⟨.identifier, "a", none, 1⟩,
    ⟨.rightParen, ")", none, 1⟩, ⟨.keyword .ifWord, "if", none, 1⟩, ⟨.leftParen, "(", none, 1⟩,
    ⟨.identifier, "b", none, 1⟩, ⟨.rightParen, ")", none, 1⟩, ⟨.leftBrace, "\x7b", none, 1⟩,
    ⟨.rightBrace, "\x7d", none, 1⟩, ⟨.keyword .elseWord, "else", none, 2⟩,
    ⟨.identifier, "f", none, 2⟩, ⟨.leftParen, "(", none, 2⟩, ⟨.rightParen, ")", none, 2⟩,
    ⟨.semicolon, ";", none, 2⟩]

theorem danglingElse_isProgram :
    (∀ c ∈ (parse nestingLimit danglingElse).complaints, c.problem ≠ .tooDeep) ∧
      IsProgram danglingElse ∧
      Reads .declarations danglingElse (parse nestingLimit danglingElse).statements := by
  have hquiet : (parse nestingLimit danglingElse).complaints = [] := by decide +kernel
  have hdeep : ∀ c ∈ (parse nestingLimit danglingElse).complaints, c.problem ≠ .tooDeep := by
    simp [hquiet]
  obtain ⟨hiff, hreads⟩ := reads_quietly_iff_isProgram nestingLimit danglingElse hdeep
  exact ⟨hdeep, hiff.1 hquiet, hreads hquiet⟩

end Scriptling.Parser
