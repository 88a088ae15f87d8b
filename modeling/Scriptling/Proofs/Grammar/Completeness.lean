-- Reading is complete: tokens that have a reading are read without a complaint, and as that
-- reading says, unless they nest too deeply. `Leads` follows a parser through its tokens: it does
-- with the tokens what another parser does with those that are left, or it gives up because of
-- the depth.
import Scriptling.Proofs.Grammar.Soundness

namespace Scriptling.Parser

open Grammar

variable {α β : Type}

/-! ## Following a parser -/

/-- The parser gives up because the source nests too deeply, and has not complained before. -/
def Deep (p : Parser α) (ts : List Token) : Prop :=
  (p ts).outcome = .error .tooDeep ∧ (p ts).complaints = []

def Leads (p : Parser α) (ts : List Token) (q : Parser α) (rest : List Token) : Prop :=
  p ts = q rest ∨ Deep p ts

/-- The parser takes tokens up to `rest` and gives `a`, unless they nest too deeply. -/
def Takes (p : Parser α) (ts : List Token) (a : α) (rest : List Token) : Prop :=
  Leads p ts (pure a) rest

theorem Gives.takes {p : Parser α} {ts rest : List Token} {a : α} (h : Gives p ts a rest) :
    Takes p ts a rest := Or.inl h

theorem leads_refl (p : Parser α) (ts : List Token) : Leads p ts p ts := Or.inl rfl

theorem leads_tooDeep (ts : List Token) (q : Parser α) (rest : List Token) :
    Leads tooDeep ts q rest := Or.inr ⟨rfl, rfl⟩

theorem Leads.trans {p q r : Parser α} {ts us rest : List Token} (h : Leads p ts q us)
    (h' : Leads q us r rest) : Leads p ts r rest := by
  obtain h | h := h
  · unfold Leads Deep
    rw [h]
    exact h'
  · exact Or.inr h

/-- What comes after a parser starts with its result and with the tokens it left. -/
theorem Takes.bind {p : Parser α} {f : α → Parser β} {q : Parser β} {ts mid rest : List Token}
    {a : α} (h : Takes p ts a mid) (hf : Leads (f a) mid q rest) : Leads (p >>= f) ts q rest := by
  have hbind : (p >>= f) ts = Parser.bind p f ts := rfl
  obtain h | ⟨hdeep, hquiet⟩ := h
  · have hstep : (p >>= f) ts = f a mid := by
      rw [hbind, Parser.bind, h]
      rfl
    unfold Leads Deep
    rw [hstep]
    exact hf
  · refine Or.inr ?_
    unfold Deep
    rw [hbind, Parser.bind]
    cases hp : p ts with
    | mk outcome left complaints =>
      rw [hp] at hdeep hquiet
      subst hdeep
      exact ⟨rfl, hquiet⟩

theorem Takes.map {p : Parser α} {ts rest : List Token} {a : α} (f : α → β)
    (h : Takes p ts a rest) : Takes (f <$> p) ts (f a) rest := Takes.bind h (leads_refl _ _)

theorem Takes.recovering {p : Parser α} {ts rest : List Token} {a : α} (h : Takes p ts a rest) :
    Takes (recovering p) ts (some a) rest := by
  obtain h | ⟨hdeep, hquiet⟩ := h
  · refine Or.inl ?_
    unfold Parser.recovering
    rw [h]
    rfl
  · refine Or.inr ?_
    unfold Deep Parser.recovering
    cases hp : p ts with
    | mk outcome left complaints =>
      rw [hp] at hdeep hquiet
      subst hdeep
      exact ⟨rfl, hquiet⟩

theorem takes_accept {k : Kind} {t : Token} {rest : List Token} (h : t.kind = k) :
    Takes (accept k) (t :: rest) (some t) rest :=
  (gives_accept.2 (Or.inl ⟨t, rfl, rfl, h⟩)).takes

theorem takes_accept_none {k : Kind} {ts : List Token} (h : ¬ StartsWith k ts) :
    Takes (accept k) ts none ts := (gives_accept.2 (Or.inr ⟨rfl, rfl, h⟩)).takes

theorem takes_expect {k : Kind} {t : Token} {rest : List Token} (problem : Problem)
    (h : t.kind = k) : Takes (expect k problem) (t :: rest) t rest :=
  (gives_expect.2 ⟨rfl, h⟩).takes

theorem takes_check {k : Kind} {ts : List Token} (b : Bool) (h : b = true ↔ StartsWith k ts) :
    Takes (check k) ts b ts := (gives_check.2 ⟨rfl, h⟩).takes

/-- A loop ends where its step gives nothing. -/
theorem leads_iterate_end {step : α → Parser (Option α)} {a : α} {ts : List Token}
    (h : Takes (step a) ts none ts) (n : Nat) : Takes (iterate step n a) ts a ts := by
  cases n with
  | zero => exact leads_refl _ _
  | succ n => exact h.bind (leads_refl _ _)

/-! ## How phrases start and end -/

/-- The kinds with which a term can start. -/
def termHeads : List Kind :=
  [.keyword .falseWord, .keyword .trueWord, .keyword .nilWord, .number, .string, .identifier,
    .leftParen]

/-- The kinds with which an expression can start. -/
def expressionHeads : List Kind := .bang :: .minus :: termHeads

def heads : Symbol → List Kind
  | .call | .primary => termHeads
  | _ => expressionHeads

theorem mem_heads {s : Symbol} {k : Kind} (h : k ∈ termHeads) : k ∈ heads s := by
  have hmem : k ∈ expressionHeads := List.mem_cons_of_mem _ (List.mem_cons_of_mem _ h)
  cases s <;> assumption

theorem derives_head {s : Symbol} {ts : List Token} {t : s.Tree} (h : Derives s ts t) :
    ∃ first rest, ts = first :: rest ∧ first.kind ∈ heads s := by
  induction h with
  | assign hname => exact ⟨_, _, rfl, by rw [hname]; decide⟩
  | logicOr _ ih => exact ih
  | operand _ ih => exact ih
  | tightest _ ih => exact ih
  | lastArgument _ ih => exact ih
  | operation _ _ _ ih =>
    obtain ⟨first, rest, rfl, hfirst⟩ := ih
    exact ⟨first, _, rfl, hfirst⟩
  | sign hoperator =>
    refine ⟨_, _, rfl, ?_⟩
    obtain h | h := hoperator <;> rw [h] <;> decide
  | unsigned _ ih =>
    obtain ⟨first, rest, rfl, hfirst⟩ := ih
    exact ⟨first, rest, rfl, mem_heads hfirst⟩
  | uncalled _ ih => exact ih
  | callEmpty _ _ _ ih =>
    obtain ⟨first, rest, rfl, hfirst⟩ := ih
    exact ⟨first, _, rfl, hfirst⟩
  | callWith _ _ _ _ _ ih =>
    obtain ⟨first, rest, rfl, hfirst⟩ := ih
    exact ⟨first, _, rfl, hfirst⟩
  | argument _ _ _ ih =>
    obtain ⟨first, rest, rfl, hfirst⟩ := ih
    exact ⟨first, _, rfl, hfirst⟩
  | falseWord hk => exact ⟨_, _, rfl, by rw [hk]; decide⟩
  | trueWord hk => exact ⟨_, _, rfl, by rw [hk]; decide⟩
  | nilWord hk => exact ⟨_, _, rfl, by rw [hk]; decide⟩
  | literal hk =>
    refine ⟨_, _, rfl, ?_⟩
    obtain h | h := hk <;> rw [h] <;> decide
  | name hk => exact ⟨_, _, rfl, by rw [hk]; decide⟩
  | grouping hk => exact ⟨_, _, rfl, by rw [hk]; decide⟩

theorem derives_not_startsWith {s : Symbol} {ts rest : List Token} {t : s.Tree} {k : Kind}
    (h : Derives s ts t) (hk : k ∉ heads s) : ¬ StartsWith k (ts ++ rest) := by
  obtain ⟨first, us, rfl, hfirst⟩ := derives_head h
  refine not_startsWith_cons ?_ _
  rintro rfl
  exact hk hfirst

/-- No operator of the given levels comes next, and no call. -/
def Follows (ls : List Level) (rest : List Token) : Prop :=
  ∀ t ∈ rest.head?, t.kind ≠ .leftParen ∧ ∀ l ∈ ls, t.kind ∉ l.operators

/-- An expression ends before these tokens. -/
def Ends (rest : List Token) : Prop := Follows Level.all rest ∧ ¬ StartsWith .equal rest

theorem ends_of_kind {t : Token} {rest : List Token}
    (h : t.kind = .semicolon ∨ t.kind = .rightParen ∨ t.kind = .comma) : Ends (t :: rest) := by
  refine ⟨?_, ?_⟩
  · intro u hu
    cases hu
    obtain h | h | h := h <;> rw [h] <;> exact ⟨by decide, by decide⟩
  · refine not_startsWith_cons ?_ rest
    obtain h | h | h := h <;> rw [h] <;> decide

theorem Follows.mono {ls ls' : List Level} {rest : List Token} (h : Follows ls rest)
    (hsub : ∀ l ∈ ls', l ∈ ls) : Follows ls' rest :=
  fun t ht => ⟨(h t ht).1, fun l hl => (h t ht).2 l (hsub l hl)⟩

/-- No two levels have an operator in common. -/
theorem levels_apart :
    Level.all.Pairwise fun l l' => ∀ k ∈ l.operators, k ∉ l'.operators := by
  decide

theorem leftParen_not_mem_operators (l : Level) : Kind.leftParen ∉ l.operators := by
  cases l <;> decide

/-- An operator of a level is none of a tighter level, and opens no call. -/
theorem follows_operator {l : Level} {ls : List Level} (hsuffix : (l :: ls) <:+ Level.all)
    {operator : Token} (h : operator.kind ∈ l.operators) (rest : List Token) :
    Follows ls (operator :: rest) := by
  intro t ht
  cases ht
  have hapart := List.pairwise_cons.1 (levels_apart.sublist hsuffix.sublist)
  refine ⟨?_, fun l' hl' => hapart.1 l' hl' _ h⟩
  intro hparen
  rw [hparen] at h
  exact leftParen_not_mem_operators l h

/-! ## Lists -/

/-- Items with commas between them, up to a closing parenthesis. -/
theorem takes_items {item : Parser α} {P : List Token → α → Prop} {size : Nat}
    (hitem : ∀ ts a rest, P ts a → (ts ++ rest).length ≤ size →
      (StartsWith .comma rest ∨ StartsWith .rightParen rest) → Takes item (ts ++ rest) a rest)
    (problem : Problem) {n count : Nat} {ts rest : List Token} {as : List α}
    (h : Separated P ts as) (hsize : (ts ++ rest).length ≤ size) (hn : (ts ++ rest).length ≤ n)
    (hcount : count + as.length ≤ mostItems + 1) (hrest : StartsWith .rightParen rest) :
    Takes (item >>= fun a => moreItems item problem n count >>= fun as => pure (a :: as))
      (ts ++ rest) as rest := by
  induction h generalizing n count with
  | last h =>
    refine (hitem _ _ _ h hsize (Or.inr hrest)).bind ?_
    have hcomma : ¬ StartsWith .comma rest := by
      obtain ⟨t, us, rfl, ht⟩ := hrest
      exact not_startsWith_cons (by simp [ht]) us
    have hnone : Takes (moreItems item problem n count) rest [] rest := by
      cases n with
      | zero => exact leads_refl _ _
      | succ n => exact (takes_accept_none hcomma).bind (leads_refl _ _)
    exact hnone.bind (leads_refl _ _)
  | @more comma ts us a as h hcomma hmore ih =>
    simp only [List.append_assoc, List.cons_append, List.length_append, List.length_cons]
      at hsize hn ⊢
    have hafter : StartsWith .comma (comma :: (us ++ rest)) := ⟨comma, _, rfl, hcomma⟩
    have hwhole : (ts ++ comma :: (us ++ rest)).length ≤ size := by
      simp only [List.length_append, List.length_cons]
      omega
    refine (hitem _ _ _ h hwhole (Or.inl hafter)).bind ?_
    obtain ⟨n, rfl⟩ : ∃ m, n = m + 1 := ⟨n - 1, by omega⟩
    have htail : Takes (moreItems item problem (n + 1) count) (comma :: (us ++ rest)) as rest := by
      refine (takes_accept hcomma).bind ?_
      have hlimit : ¬ argumentLimit ≤ count := by
        have : 0 < as.length := by cases hmore <;> simp
        simp only [List.length_cons, mostItems] at hcount
        simp only [argumentLimit]
        omega
      simp only [hlimit, if_false]
      simp only [List.length_cons] at hcount
      refine ih ?_ ?_ (by omega)
      · rw [List.length_append]
        omega
      · rw [List.length_append]
        omega
    exact htail.bind (leads_refl _ _)

theorem takes_commaSeparated {item : Parser α} {P : List Token → α → Prop} {size : Nat}
    (hitem : ∀ ts a rest, P ts a → (ts ++ rest).length ≤ size →
      (StartsWith .comma rest ∨ StartsWith .rightParen rest) → Takes item (ts ++ rest) a rest)
    (problem : Problem) {ts rest : List Token} {as : List α} (h : Separated P ts as)
    (hsize : (ts ++ rest).length ≤ size) (hmost : as.length ≤ mostItems)
    (hrest : StartsWith .rightParen rest) :
    Takes (commaSeparated size item problem) (ts ++ rest) as rest :=
  takes_items hitem problem h hsize hsize (by omega) hrest

/-! ## Expressions -/

/-- One more operator and its right operand. -/
def chainStep (rung : Rung) (operand : Parser RawExpr) (left : RawExpr) :
    Parser (Option RawExpr) := do
  match ← acceptIf rung.operators.contains with
  | none => return none
  | some operator => return some (rung.join left operator (← operand))

/-- The operators of some levels over the unary ones. -/
def tower (size budget : Nat) (ls : List Level) : Parser RawExpr :=
  (ls.map rungOf).foldr (chain size) (unary size budget)

/-- One more call of a callee. -/
def callStep (size : Nat) (nested : Parser RawExpr) (callee : RawExpr) :
    Parser (Option RawExpr) := do
  match ← accept .leftParen with
  | none => return none
  | some _ => return some (← finishCall size nested callee)

/-- The tokens are read as an expression wherever one can end behind them. -/
def CompleteExpression (ts : List Token) (e : RawExpr) : Prop :=
  ∀ size budget rest, (ts ++ rest).length ≤ size → Ends rest →
    Takes (expression size budget) (ts ++ rest) e rest

/-- Tokens that derive from a symbol are read as they should be. A chain or a call may go on
behind them, so these are said to come to a turn of their loop, with turns left. -/
def Complete : (s : Symbol) → List Token → s.Tree → Prop
  | .expression, ts, e => CompleteExpression ts e
  | .ladder (l :: ls), ts, e => (l :: ls) <:+ Level.all → ∃ k < ts.length, ∀ size budget rest,
      (ts ++ rest).length ≤ size → Follows ls rest →
      Leads (tower size budget (l :: ls)) (ts ++ rest)
        (iterate (chainStep (rungOf l) (tower size budget ls)) (size - k) e) rest
  | .ladder [], ts, e | .unary, ts, e => ∀ size budget rest, (ts ++ rest).length ≤ size →
      Follows [] rest → Takes (unary size budget) (ts ++ rest) e rest
  | .call, ts, e => ∃ k < ts.length, ∀ size budget rest, (ts ++ rest).length ≤ size →
      Leads (call size (expression size budget)) (ts ++ rest)
        (iterate (callStep size (expression size budget)) (size - k) e) rest
  | .primary, ts, e => ∀ size budget rest, (ts ++ rest).length ≤ size →
      Takes (primary (expression size budget)) (ts ++ rest) e rest
  | .arguments, ts, es => Separated CompleteExpression ts es

theorem not_startsWith_of_follows {ls : List Level} {rest : List Token} (h : Follows ls rest) :
    ¬ StartsWith .leftParen rest := by
  rintro ⟨t, us, rfl, ht⟩
  exact (h t rfl).1 ht

theorem takes_acceptIf_none {l : Level} {ls : List Level} {rest : List Token}
    (h : Follows (l :: ls) rest) :
    Takes (acceptIf (rungOf l).operators.contains) rest none rest := by
  refine (gives_acceptIf.2 (Or.inr ⟨rfl, rfl, ?_⟩)).takes
  intro t ht
  simpa [rungOf] using (h t ht).2 l (List.mem_cons_self ..)

/-- A chain that no operator follows is read to its end. -/
theorem Complete.takes_tower {ls : List Level} {ts rest : List Token} {e : RawExpr}
    (h : Complete (.ladder ls) ts e) (hsuffix : ls <:+ Level.all) (size budget : Nat)
    (hsize : (ts ++ rest).length ≤ size) (hrest : Follows ls rest) :
    Takes (tower size budget ls) (ts ++ rest) e rest := by
  cases ls with
  | nil => exact h size budget rest hsize hrest
  | cons l ls =>
    obtain ⟨k, -, hleads⟩ := h hsuffix
    have hrest' := hrest.mono fun l hl => List.mem_cons_of_mem _ hl
    refine (hleads size budget rest hsize hrest').trans ?_
    have hend : Takes (chainStep (rungOf l) (tower size budget ls) e) rest none rest :=
      (takes_acceptIf_none hrest).bind (leads_refl _ _)
    exact leads_iterate_end hend _

theorem Complete.takes_call {ts rest : List Token} {e : RawExpr} (h : Complete .call ts e)
    (size budget : Nat) (hsize : (ts ++ rest).length ≤ size) (hrest : Follows [] rest) :
    Takes (call size (expression size budget)) (ts ++ rest) e rest := by
  obtain ⟨k, -, hleads⟩ := h
  refine (hleads size budget rest hsize).trans ?_
  have hend : Takes (callStep size (expression size budget) e) rest none rest :=
    (takes_accept_none (not_startsWith_of_follows hrest)).bind (leads_refl _ _)
  exact leads_iterate_end hend _

/-- A callee comes to the turn of its loop where the next parenthesis is read. -/
theorem complete_callWith {opening closing : Token} {ts us : List Token} {e : RawExpr}
    {es : List RawExpr} (hopening : opening.kind = .leftParen) (hcallee : Complete .call ts e)
    (harguments : ∀ size budget rest, (us ++ closing :: rest).length ≤ size →
      Takes (finishCall size (expression size budget) e) (us ++ closing :: rest)
        (.call e closing es) rest) :
    Complete .call (ts ++ opening :: us ++ [closing]) (.call e closing es) := by
  obtain ⟨k, hk, hleads⟩ := hcallee
  refine ⟨k + 1, by simp; omega, fun size budget rest hsize => ?_⟩
  simp only [List.append_assoc, List.cons_append, List.nil_append, List.length_append,
    List.length_cons] at hsize ⊢
  refine (hleads size budget _ (by simp; omega)).trans ?_
  obtain ⟨n, hn⟩ : ∃ n, size - k = n + 1 := ⟨size - k - 1, by omega⟩
  rw [hn, show size - (k + 1) = n by omega]
  have hstep : Takes (callStep size (expression size budget) e)
      (opening :: (us ++ closing :: rest)) (some (.call e closing es)) rest :=
    (takes_accept hopening).bind
      ((harguments size budget rest (by simp; omega)).bind (leads_refl _ _))
  exact hstep.bind (leads_refl _ _)

theorem complete_name {t : Token} (hk : t.kind = .identifier) :
    Complete .primary [t] (.variable t ()) := by
  intro size budget rest _
  refine Or.inl ?_
  simp only [List.cons_append, primary, hk]
  rfl

theorem complete_uncalled {ts : List Token} {e : RawExpr} (h : Derives .primary ts e)
    (ih : Complete .primary ts e) : Complete .call ts e := by
  obtain ⟨first, us, hts, -⟩ := derives_head h
  refine ⟨0, by simp [hts], fun size budget rest hsize => ?_⟩
  exact (ih size budget rest hsize).bind (leads_refl _ _)

theorem complete_unsigned {ts : List Token} {e : RawExpr} (h : Derives .call ts e)
    (ih : Complete .call ts e) : Complete .unary ts e := by
  intro size budget rest hsize hrest
  obtain hlt | ⟨budget, rfl⟩ := lt_or_eq_add 3 budget
  · rw [unary_of_lt hlt]
    exact leads_tooDeep _ _ _
  rw [unary]
  obtain ⟨first, us, rfl, hfirst⟩ := derives_head h
  have hno : ∀ k ∈ termHeads, [Kind.bang, .minus].contains k = false := by decide
  have haccept : Takes (acceptIf [Kind.bang, .minus].contains) (first :: us ++ rest) none
      (first :: us ++ rest) :=
    (gives_acceptIf.2 (Or.inr ⟨rfl, rfl, by simpa using hno _ hfirst⟩)).takes
  exact haccept.bind (ih.takes_call size budget hsize hrest)

theorem complete_operand {l : Level} {ls : List Level} {ts : List Token} {e : RawExpr}
    (h : Derives (.ladder ls) ts e) (ih : Complete (.ladder ls) ts e) :
    Complete (.ladder (l :: ls)) ts e := by
  intro hsuffix
  obtain ⟨first, us, hts, -⟩ := derives_head h
  refine ⟨0, by simp [hts], fun size budget rest hsize hrest => ?_⟩
  have hls : ls <:+ Level.all := (List.suffix_cons l ls).trans hsuffix
  exact (ih.takes_tower hls size budget hsize hrest).bind (leads_refl _ _)

/-- A single name goes through all levels. -/
theorem complete_ladder_name {t : Token} (hk : t.kind = .identifier) (ls : List Level) :
    Derives (.ladder ls) [t] (.variable t ()) ∧ Complete (.ladder ls) [t] (.variable t ()) := by
  induction ls with
  | nil =>
    have hcall : Derives .call [t] (.variable t ()) := .uncalled (.name hk)
    refine ⟨.tightest (.unsigned hcall), ?_⟩
    exact complete_unsigned hcall (complete_uncalled (.name hk) (complete_name hk))
  | cons l ls ih => exact ⟨.operand ih.1, complete_operand ih.1 ih.2⟩

theorem complete_assign {name equals : Token} {ts : List Token} {e : RawExpr}
    (hname : name.kind = .identifier) (hequals : equals.kind = .equal)
    (hvalue : CompleteExpression ts e) :
    CompleteExpression (name :: equals :: ts) (.assign name e ()) := by
  intro size budget rest hsize hrest
  obtain hlt | ⟨budget, rfl⟩ := lt_or_eq_add 12 budget
  · rw [expression_of_lt hlt]
    exact leads_tooDeep _ _ _
  simp only [List.cons_append, List.length_cons] at hsize ⊢
  rw [expression, ladder, rungs_eq]
  -- the name is read as an expression of its own first
  have htarget := (complete_ladder_name hname Level.all).2
  have hequal : Follows Level.all (equals :: (ts ++ rest)) := by
    intro t ht
    cases ht
    rw [hequals]
    exact ⟨by decide, by decide⟩
  refine Takes.bind (htarget.takes_tower (List.suffix_refl _) size budget (by simpa using hsize)
    hequal) ?_
  refine (takes_accept hequals).bind ((hvalue size (budget + 11) rest (by omega) hrest).bind ?_)
  exact leads_refl _ _

theorem complete_unassigned {ts : List Token} {e : RawExpr}
    (h : Complete (.ladder Level.all) ts e) : CompleteExpression ts e := by
  intro size budget rest hsize hrest
  obtain hlt | ⟨budget, rfl⟩ := lt_or_eq_add 12 budget
  · rw [expression_of_lt hlt]
    exact leads_tooDeep _ _ _
  rw [expression, ladder, rungs_eq]
  refine Takes.bind (h.takes_tower (List.suffix_refl _) size budget hsize hrest.1) ?_
  exact (takes_accept_none hrest.2).bind (leads_refl _ _)

/-- A chain goes on with one more operator and its right operand. -/
theorem complete_operation {l : Level} {ls : List Level} {ts us : List Token} {operator : Token}
    {e e' : RawExpr} (hleft : Complete (.ladder (l :: ls)) ts e)
    (hoperator : operator.kind ∈ l.operators) (hright : Derives (.ladder ls) us e')
    (hcomplete : Complete (.ladder ls) us e') :
    Complete (.ladder (l :: ls)) (ts ++ operator :: us) (l.node e operator e') := by
  intro hsuffix
  obtain ⟨k, hk, hleads⟩ := hleft hsuffix
  obtain ⟨first, vs, hus, -⟩ := derives_head hright
  have hls : ls <:+ Level.all := (List.suffix_cons l ls).trans hsuffix
  refine ⟨k + 1, by simp; omega, fun size budget rest hsize hrest => ?_⟩
  simp only [List.append_assoc, List.cons_append, List.length_append, List.length_cons]
    at hsize ⊢
  refine (hleads size budget _ (by simp; omega) (follows_operator hsuffix hoperator _)).trans ?_
  obtain ⟨n, hn⟩ : ∃ n, size - k = n + 1 := ⟨size - k - 1, by omega⟩
  rw [hn, show size - (k + 1) = n by omega]
  have haccept : Takes (acceptIf (rungOf l).operators.contains) (operator :: (us ++ rest))
      (some operator) (us ++ rest) :=
    (gives_acceptIf.2 (Or.inl ⟨operator, rfl, rfl, by simpa [rungOf] using hoperator⟩)).takes
  have hoperand := hcomplete.takes_tower hls size budget (by simp; omega) hrest
  have hstep : Takes (chainStep (rungOf l) (tower size budget ls) e)
      (operator :: (us ++ rest)) (some (l.node e operator e')) rest :=
    haccept.bind (hoperand.bind (leads_refl _ _))
  exact hstep.bind (leads_refl _ _)

theorem complete_sign {operator : Token} {ts : List Token} {e : RawExpr}
    (hoperator : operator.kind = .bang ∨ operator.kind = .minus) (h : Complete .unary ts e) :
    Complete .unary (operator :: ts) (.unary operator e) := by
  intro size budget rest hsize hrest
  obtain hlt | ⟨budget, rfl⟩ := lt_or_eq_add 3 budget
  · rw [unary_of_lt hlt]
    exact leads_tooDeep _ _ _
  simp only [List.cons_append, List.length_cons] at hsize ⊢
  rw [unary]
  have haccept : Takes (acceptIf [Kind.bang, .minus].contains) (operator :: (ts ++ rest))
      (some operator) (ts ++ rest) :=
    (gives_acceptIf.2 (Or.inl ⟨operator, rfl, rfl, by simpa using hoperator⟩)).takes
  exact haccept.bind ((h size (budget + 2) rest (by omega) hrest).bind (leads_refl _ _))

theorem complete_grouping {opening closing : Token} {ts : List Token} {e : RawExpr}
    (hopening : opening.kind = .leftParen) (h : CompleteExpression ts e)
    (hclosing : closing.kind = .rightParen) :
    Complete .primary (opening :: ts ++ [closing]) (.grouping e) := by
  intro size budget rest hsize
  simp only [List.append_assoc, List.cons_append, List.nil_append, List.length_append,
    List.length_cons] at hsize ⊢
  have hinner : Takes (grouping (expression size budget)) (ts ++ closing :: rest) (.grouping e)
      rest :=
    (h size budget (closing :: rest) (by simp; omega) (ends_of_kind (by simp [hclosing]))).bind
      ((takes_expect _ hclosing).bind (leads_refl _ _))
  have hprimary : primary (expression size budget) (opening :: (ts ++ closing :: rest)) =
      grouping (expression size budget) (ts ++ closing :: rest) := by
    simp only [primary, hopening]
  unfold Takes Leads Deep
  rw [hprimary]
  exact hinner

theorem derives_complete {s : Symbol} {ts : List Token} {t : s.Tree} (h : Derives s ts t) :
    Complete s ts t := by
  induction h with
  | assign hname hequals _ ih => exact complete_assign hname hequals ih
  | logicOr _ ih => exact complete_unassigned ih
  | operand h ih => exact complete_operand h ih
  | operation _ hoperator hright ih ih' => exact complete_operation ih hoperator hright ih'
  | tightest _ ih => exact ih
  | sign hoperator _ ih => exact complete_sign hoperator ih
  | unsigned h ih => exact complete_unsigned h ih
  | uncalled h ih => exact complete_uncalled h ih
  | @callEmpty opening closing ts e _ hopening hclosing ih =>
    have hcall : Complete .call (ts ++ opening :: [] ++ [closing]) (.call e closing []) := by
      refine complete_callWith hopening ih fun size budget rest _ => ?_
      refine (takes_check true (by simpa using ⟨closing, rest, rfl, hclosing⟩)).bind ?_
      exact Takes.bind (leads_refl _ _) ((takes_expect _ hclosing).bind (leads_refl _ _))
    simpa using hcall
  | @callWith opening closing ts us e es _ hopening harguments hmost hclosing ih ih' =>
    refine complete_callWith hopening ih fun size budget rest hsize => ?_
    have hno : ¬ StartsWith .rightParen (us ++ closing :: rest) :=
      derives_not_startsWith harguments (by decide)
    refine (takes_check false (by simpa using hno)).bind ?_
    have hitem : ∀ ts e rest, CompleteExpression ts e → (ts ++ rest).length ≤ size →
        (StartsWith .comma rest ∨ StartsWith .rightParen rest) →
        Takes (expression size budget) (ts ++ rest) e rest := by
      rintro ts e rest he hsize (⟨t, us, rfl, ht⟩ | ⟨t, us, rfl, ht⟩)
      · exact he size budget _ hsize (ends_of_kind (by simp [ht]))
      · exact he size budget _ hsize (ends_of_kind (by simp [ht]))
    refine (takes_commaSeparated hitem _ ih' hsize hmost ⟨closing, rest, rfl, hclosing⟩).bind ?_
    exact (takes_expect _ hclosing).bind (leads_refl _ _)
  | lastArgument _ ih => exact .last ih
  | argument _ hcomma _ ih ih' => exact .more ih hcomma ih'
  | falseWord hk | trueWord hk | nilWord hk =>
    intro size budget rest _
    refine Or.inl ?_
    simp only [List.cons_append, primary, hk]
    rfl
  | literal hk =>
    intro size budget rest _
    refine Or.inl ?_
    obtain hk | hk := hk <;> simp only [List.cons_append, primary, hk] <;> rfl
  | name hk => exact complete_name hk
  | grouping hopening _ hclosing ih => exact complete_grouping hopening ih hclosing

end Scriptling.Parser
