-- Reading is sound: what a parser gives without a complaint has a reading, and the tree it gives
-- is the tree of that reading. No token is left out on the way.
import Scriptling.Proofs.Grammar.Nearest
import Scriptling.Proofs.Grammar.Outcome

namespace Scriptling.Parser

open Grammar

variable {α : Type}

/-! ## The ladder -/

/-- What the parser gives, it has taken from tokens that derive from the symbol. -/
def Finds (s : Symbol) (p : Parser s.Tree) : Prop :=
  ∀ ts a rest, Gives p ts a rest → ∃ used, ts = used ++ rest ∧ Derives s used a

/-- The rung of a level. -/
def rungOf (l : Level) : Rung := ⟨l.operators, l.node⟩

theorem rungs_eq : rungs = Level.all.map rungOf := rfl

theorem finds_chain {size : Nat} {l : Level} {ls : List Level} {operand : Parser RawExpr}
    (h : Finds (.ladder ls) operand) :
    Finds (.ladder (l :: ls)) (chain size (rungOf l) operand) := by
  intro ts e rest hgives
  obtain ⟨first, mid, hfirst, hloop⟩ := gives_bind.1 hgives
  obtain ⟨used, rfl, hderives⟩ := h _ _ _ hfirst
  refine gives_iterate ?_ ?_ (Derives.operand hderives) rfl hloop
  · intro used' left mid' e' rest' hleft hstep hwhole
    obtain ⟨o, mid'', ho, hmore⟩ := gives_bind.1 hstep
    obtain ⟨operator, rfl, rfl, hoperator⟩ | ⟨rfl, rfl, -⟩ := gives_acceptIf.1 ho
    · obtain ⟨right, mid3, hright, hpure⟩ := gives_bind.1 hmore
      obtain ⟨hsome, rfl⟩ := gives_pure.1 hpure
      cases hsome
      obtain ⟨us, rfl, hus⟩ := h _ _ _ hright
      refine ⟨used' ++ operator :: us, by simpa using hwhole, ?_⟩
      exact .operation hleft (by simpa [rungOf] using hoperator) hus
    · cases (gives_pure.1 hmore).1
  · intro a mid' rest' hstep
    obtain ⟨o, mid'', ho, hmore⟩ := gives_bind.1 hstep
    obtain ⟨operator, rfl, rfl, -⟩ | ⟨rfl, rfl, -⟩ := gives_acceptIf.1 ho
    · obtain ⟨right, mid3, -, hpure⟩ := gives_bind.1 hmore
      cases (gives_pure.1 hpure).1
    · exact (gives_pure.1 hmore).2

theorem finds_ladder {size : Nat} {operand : Parser RawExpr} (h : Finds .unary operand)
    (ls : List Level) : Finds (.ladder ls) ((ls.map rungOf).foldr (chain size) operand) := by
  induction ls with
  | nil =>
    intro ts e rest hgives
    obtain ⟨used, rfl, hused⟩ := h _ _ _ hgives
    exact ⟨used, rfl, .tightest hused⟩
  | cons l ls ih => exact finds_chain ih

/-! ## Lists -/

/-- A run through items with commas between them meets fewer than the limit. -/
theorem gives_moreItems {item : Parser α} {P : List Token → α → Prop}
    (hitem : ∀ ts a rest, Gives item ts a rest → ∃ used, ts = used ++ rest ∧ P used a)
    {problem : Problem} {n count : Nat} {ts rest used : List Token} {first : α} {as : List α}
    (hfirst : P used first) (hcount : count ≤ mostItems)
    (h : Gives (moreItems item problem n count) ts as rest) :
    ∃ more, ts = more ++ rest ∧ Separated P (used ++ more) (first :: as) ∧
      count + as.length ≤ mostItems := by
  induction n generalizing count ts used first as with
  | zero =>
    obtain ⟨rfl, rfl⟩ := gives_pure.1 h
    exact ⟨[], rfl, by simpa using Separated.last hfirst, by simpa using hcount⟩
  | succ n ih =>
    obtain ⟨o, mid, ho, hrest⟩ := gives_bind.1 h
    obtain ⟨comma, rfl, rfl, hcomma⟩ | ⟨rfl, rfl, -⟩ := gives_accept.1 ho
    · have hless : count < mostItems := by
        refine Nat.lt_of_not_le fun hle => ?_
        replace hle : argumentLimit ≤ count := hle
        simp only [hle, if_true] at hrest
        obtain ⟨_, _, hcomplain, -⟩ := gives_bind.1 hrest
        cases hcomplain
      have hle : ¬ argumentLimit ≤ count := Nat.not_le_of_lt hless
      simp only [hle, if_false] at hrest
      obtain ⟨a, mid', ha, hmore⟩ := gives_bind.1 hrest
      obtain ⟨us, rfl, hus⟩ := hitem _ _ _ ha
      obtain ⟨as', mid3, has, hpure⟩ := gives_bind.1 hmore
      obtain ⟨rfl, rfl⟩ := gives_pure.1 hpure
      obtain ⟨more, rfl, hmore, hlength⟩ := ih hus (by omega) has
      refine ⟨comma :: us ++ more, by simp, ?_, ?_⟩
      · simpa using Separated.more hfirst hcomma hmore
      · simp only [List.length_cons]
        omega
    · obtain ⟨rfl, rfl⟩ := gives_pure.1 hrest
      exact ⟨[], rfl, by simpa using Separated.last hfirst, by simpa using hcount⟩

theorem gives_commaSeparated {item : Parser α} {P : List Token → α → Prop}
    (hitem : ∀ ts a rest, Gives item ts a rest → ∃ used, ts = used ++ rest ∧ P used a)
    {problem : Problem} {size : Nat} {ts rest : List Token} {as : List α}
    (h : Gives (commaSeparated size item problem) ts as rest) :
    ∃ used, ts = used ++ rest ∧ Separated P used as ∧ as.length ≤ mostItems := by
  obtain ⟨first, mid, hfirst, h⟩ := gives_bind.1 h
  obtain ⟨as', mid', has, hpure⟩ := gives_bind.1 h
  obtain ⟨rfl, rfl⟩ := gives_pure.1 hpure
  obtain ⟨used, rfl, hused⟩ := hitem _ _ _ hfirst
  obtain ⟨more, rfl, hmore, hlength⟩ := gives_moreItems hitem hused (by decide) has
  refine ⟨used ++ more, by simp, hmore, ?_⟩
  simp only [List.length_cons]
  omega

theorem derives_arguments {ts : List Token} {es : List RawExpr}
    (h : Separated (Derives .expression) ts es) : Derives .arguments ts es := by
  induction h with
  | last h => exact .lastArgument h
  | more h hcomma _ ih => exact .argument h hcomma ih

/-! ## Terms and calls -/

theorem finds_primary {nested : Parser RawExpr} (h : Finds .expression nested) :
    Finds .primary (primary nested) := by
  intro ts e rest hgives
  cases ts with
  | nil => exact absurd hgives not_gives_refuse
  | cons t us =>
    unfold Gives primary at hgives
    dsimp only at hgives
    split at hgives
    case h_1 hk => cases hgives; exact ⟨[t], rfl, .falseWord hk⟩
    case h_2 hk => cases hgives; exact ⟨[t], rfl, .trueWord hk⟩
    case h_3 hk => cases hgives; exact ⟨[t], rfl, .nilWord hk⟩
    case h_4 hk => cases hgives; exact ⟨[t], rfl, .literal (Or.inl hk)⟩
    case h_5 hk => cases hgives; exact ⟨[t], rfl, .literal (Or.inr hk)⟩
    case h_6 hk => cases hgives; exact ⟨[t], rfl, .name hk⟩
    case h_7 hk =>
      obtain ⟨inner, mid, hinner, hgives⟩ := gives_bind.1 hgives
      obtain ⟨closing, mid', hexpect, hpure⟩ := gives_bind.1 hgives
      obtain ⟨rfl, rfl⟩ := gives_pure.1 hpure
      obtain ⟨rfl, hclosing⟩ := gives_expect.1 hexpect
      obtain ⟨used, rfl, hused⟩ := h _ _ _ hinner
      exact ⟨t :: used ++ [closing], by simp, .grouping hk hused hclosing⟩
    case h_8 => cases hgives

/-- The arguments between the parentheses of a call, and the closing one. -/
theorem gives_finishCall {size : Nat} {nested : Parser RawExpr} (h : Finds .expression nested)
    {callee e : RawExpr} {ts us rest : List Token} {opening : Token}
    (hcallee : Derives .call us callee) (hopening : opening.kind = .leftParen)
    (hgives : Gives (finishCall size nested callee) ts e rest) :
    ∃ used, ts = used ++ rest ∧ Derives .call (us ++ opening :: used) e := by
  obtain ⟨b, mid, hb, hgives⟩ := gives_bind.1 hgives
  obtain ⟨rfl, -⟩ := gives_check.1 hb
  have hfinish : ∀ es mid', Gives (do
      let paren ← expect .rightParen .parenAfterArguments
      return Expr.call callee paren es) mid' e rest →
      ∃ closing, mid' = closing :: rest ∧ closing.kind = .rightParen ∧
        e = .call callee closing es := by
    intro es mid' hend
    obtain ⟨closing, mid3, hexpect, hpure⟩ := gives_bind.1 hend
    obtain ⟨rfl, rfl⟩ := gives_pure.1 hpure
    obtain ⟨rfl, hclosing⟩ := gives_expect.1 hexpect
    exact ⟨closing, rfl, hclosing, rfl⟩
  cases b with
  | true =>
    simp only [if_true] at hgives
    obtain ⟨es, mid', hes, hend⟩ := gives_bind.1 hgives
    obtain ⟨rfl, rfl⟩ := gives_pure.1 hes
    obtain ⟨closing, rfl, hclosing, rfl⟩ := hfinish _ _ hend
    exact ⟨[closing], rfl, .callEmpty hcallee hopening hclosing⟩
  | false =>
    simp only [Bool.false_eq_true, if_false] at hgives
    obtain ⟨es, mid', hes, hend⟩ := gives_bind.1 hgives
    obtain ⟨closing, rfl, hclosing, rfl⟩ := hfinish _ _ hend
    obtain ⟨used, rfl, hused, hmost⟩ := gives_commaSeparated h hes
    refine ⟨used ++ [closing], by simp, ?_⟩
    simpa using Derives.callWith hcallee hopening (derives_arguments hused) hmost hclosing

theorem finds_call {size : Nat} {nested : Parser RawExpr} (h : Finds .expression nested) :
    Finds .call (call size nested) := by
  intro ts e rest hgives
  obtain ⟨term, mid, hterm, hloop⟩ := gives_bind.1 hgives
  obtain ⟨used, rfl, hderives⟩ := finds_primary h _ _ _ hterm
  refine gives_iterate ?_ ?_ (Derives.uncalled hderives) rfl hloop
  · intro used' callee mid' e' rest' hcallee hstep hwhole
    obtain ⟨o, mid'', ho, hmore⟩ := gives_bind.1 hstep
    obtain ⟨opening, rfl, rfl, hopening⟩ | ⟨rfl, rfl, -⟩ := gives_accept.1 ho
    · obtain ⟨e'', mid3, hcall, hpure⟩ := gives_bind.1 hmore
      obtain ⟨hsome, rfl⟩ := gives_pure.1 hpure
      cases hsome
      obtain ⟨us, rfl, hus⟩ := gives_finishCall h hcallee hopening hcall
      exact ⟨used' ++ opening :: us, by simpa using hwhole, hus⟩
    · cases (gives_pure.1 hmore).1
  · intro a mid' rest' hstep
    obtain ⟨o, mid'', ho, hmore⟩ := gives_bind.1 hstep
    obtain ⟨opening, rfl, rfl, -⟩ | ⟨rfl, rfl, -⟩ := gives_accept.1 ho
    · obtain ⟨e'', mid3, -, hpure⟩ := gives_bind.1 hmore
      cases (gives_pure.1 hpure).1
    · exact (gives_pure.1 hmore).2

/-! ## Expressions -/

/-- The tree, looked at as the tree of a single operand. -/
def IsVariable : (s : Symbol) → s.Tree → Token → Prop
  | .ladder _, e, name | .unary, e, name | .call, e, name | .primary, e, name =>
    e = .variable name ()
  | .expression, _, _ | .arguments, _, _ => False

/-- An operand that is a variable was written as its name and nothing else. -/
theorem derives_variable {s : Symbol} {ts : List Token} {t : s.Tree} (name : Token)
    (h : Derives s ts t) (hv : IsVariable s t name) : IsName ts name := by
  induction h with
  | operand _ ih => exact ih hv
  | tightest _ ih => exact ih hv
  | unsigned _ ih => exact ih hv
  | uncalled _ ih => exact ih hv
  | @operation l => cases l <;> cases hv
  | name hk => cases hv; exact ⟨rfl, hk⟩
  | _ => cases hv

theorem finds_expression_and_unary (size budget : Nat) :
    Finds .expression (expression size budget) ∧ Finds .unary (unary size budget) := by
  induction budget using Nat.strongRecOn with
  | _ budget ih =>
    refine ⟨?_, ?_⟩
    · intro ts e rest hgives
      obtain hlt | ⟨budget, rfl⟩ := lt_or_eq_add 12 budget
      · rw [expression_of_lt hlt] at hgives
        exact absurd hgives not_gives_tooDeep
      · rw [expression] at hgives
        obtain ⟨target, mid, htarget, hmore⟩ := gives_bind.1 hgives
        obtain ⟨o, mid', ho, hend⟩ := gives_bind.1 hmore
        rw [ladder, rungs_eq] at htarget
        obtain ⟨used, rfl, hused⟩ :=
          finds_ladder (ih budget (by omega)).2 Level.all _ _ _ htarget
        obtain ⟨equals, rfl, rfl, hequals⟩ | ⟨rfl, rfl, -⟩ := gives_accept.1 ho
        · obtain ⟨value, mid3, hvalue, hassign⟩ := gives_bind.1 hend
          obtain ⟨us, rfl, hus⟩ := (ih (budget + 11) (by omega)).1 _ _ _ hvalue
          split at hassign
          · rename_i name _
            obtain ⟨rfl, rfl⟩ := gives_pure.1 hassign
            obtain ⟨rfl, hname⟩ := derives_variable name hused rfl
            exact ⟨name :: equals :: us, by simp, .assign hname hequals hus⟩
          · obtain ⟨_, _, hcomplain, -⟩ := gives_bind.1 hassign
            cases hcomplain
        · obtain ⟨rfl, rfl⟩ := gives_pure.1 hend
          exact ⟨used, rfl, .logicOr hused⟩
    · intro ts e rest hgives
      obtain hlt | ⟨budget, rfl⟩ := lt_or_eq_add 3 budget
      · rw [unary_of_lt hlt] at hgives
        exact absurd hgives not_gives_tooDeep
      · rw [unary] at hgives
        obtain ⟨o, mid, ho, hmore⟩ := gives_bind.1 hgives
        obtain ⟨operator, rfl, rfl, hoperator⟩ | ⟨rfl, rfl, -⟩ := gives_acceptIf.1 ho
        · obtain ⟨right, mid', hright, hpure⟩ := gives_bind.1 hmore
          obtain ⟨rfl, rfl⟩ := gives_pure.1 hpure
          obtain ⟨used, rfl, hused⟩ := (ih (budget + 2) (by omega)).2 _ _ _ hright
          exact ⟨operator :: used, rfl, .sign (by simpa using hoperator) hused⟩
        · obtain ⟨used, rfl, hused⟩ := finds_call (ih budget (by omega)).1 _ _ _ hmore
          exact ⟨used, rfl, .unsigned hused⟩

theorem finds_expression (size budget : Nat) : Finds .expression (expression size budget) :=
  (finds_expression_and_unary size budget).1

/-! ## Statements without statements inside -/

section Statements

variable {expr : Parser RawExpr} {inner : Parser RawStmt} {β : Type}

/-- An expression that is left out where a token of the kind `k` comes. -/
theorem gives_perhaps (h : Finds .expression expr) {k : Kind} {f : Option RawExpr → Parser β}
    {ts rest : List Token} {b : β}
    (hgives : Gives (check k >>= fun stop =>
      if stop = true then pure none >>= f else (some <$> expr) >>= f) ts b rest) :
    ∃ e used mid, ts = used ++ mid ∧ Perhaps used e ∧ Gives (f e) mid b rest := by
  obtain ⟨stop, mid, hstop, hmore⟩ := gives_bind.1 hgives
  obtain ⟨rfl, -⟩ := gives_check.1 hstop
  cases stop with
  | true =>
    obtain ⟨e, mid', he, hf⟩ := gives_bind.1 hmore
    obtain ⟨rfl, rfl⟩ := gives_pure.1 he
    exact ⟨none, [], mid', rfl, .absent, hf⟩
  | false =>
    obtain ⟨e, mid', he, hf⟩ := gives_bind.1 hmore
    obtain ⟨e', he', rfl⟩ := gives_map.1 he
    obtain ⟨used, rfl, hused⟩ := h _ _ _ he'
    exact ⟨some e', used, mid', rfl, .present hused, hf⟩

theorem gives_varDeclaration (h : Finds .expression expr) {ts rest : List Token} {s : RawStmt}
    {word : Token} (hword : word.kind = .keyword .varWord)
    (hgives : Gives (varDeclaration expr) ts s rest) :
    ∃ used, ts = used ++ rest ∧ Reads .varDecl (word :: used) s := by
  obtain ⟨name, mid, hexpected, hmore⟩ := gives_bind.1 hgives
  obtain ⟨rfl, hname⟩ := gives_expect.1 hexpected
  obtain ⟨o, mid', ho, hmore'⟩ := gives_bind.1 hmore
  obtain ⟨equals, rfl, rfl, hequals⟩ | ⟨rfl, rfl, -⟩ := gives_accept.1 ho
  · obtain ⟨e, mid3, he, hend⟩ := gives_bind.1 hmore'
    obtain ⟨semicolon, mid4, hexpect, hpure⟩ := gives_bind.1 hend
    obtain ⟨rfl, hsemicolon⟩ := gives_expect.1 hexpect
    obtain ⟨rfl, rfl⟩ := gives_pure.1 hpure
    obtain ⟨e', he', rfl⟩ := gives_map.1 he
    obtain ⟨used, rfl, hused⟩ := h _ _ _ he'
    exact ⟨name :: equals :: used ++ [semicolon], by simp,
      .initializedVar hword hname hequals hused hsemicolon⟩
  · obtain ⟨e, mid3, he, hend⟩ := gives_bind.1 hmore'
    obtain ⟨rfl, rfl⟩ := gives_pure.1 he
    obtain ⟨semicolon, mid4, hexpect, hpure⟩ := gives_bind.1 hend
    obtain ⟨rfl, hsemicolon⟩ := gives_expect.1 hexpect
    obtain ⟨rfl, rfl⟩ := gives_pure.1 hpure
    exact ⟨[name, semicolon], rfl, .plainVar hword hname hsemicolon⟩

theorem gives_expressionStatement (h : Finds .expression expr) {ts rest : List Token} {s : RawStmt}
    (hgives : Gives (expressionStatement expr) ts s rest) :
    ∃ used, ts = used ++ rest ∧ Reads .exprStmt used s := by
  obtain ⟨e, mid, he, hmore⟩ := gives_bind.1 hgives
  obtain ⟨semicolon, mid', hexpect, hpure⟩ := gives_bind.1 hmore
  obtain ⟨rfl, hsemicolon⟩ := gives_expect.1 hexpect
  obtain ⟨rfl, rfl⟩ := gives_pure.1 hpure
  obtain ⟨used, rfl, hused⟩ := h _ _ _ he
  exact ⟨used ++ [semicolon], by simp, .expression hused hsemicolon⟩

theorem gives_printStatement (h : Finds .expression expr) {ts rest : List Token} {s : RawStmt}
    {word : Token} (hword : word.kind = .keyword .printWord)
    (hgives : Gives (printStatement expr) ts s rest) :
    ∃ used, ts = used ++ rest ∧ Reads (.statement false) (word :: used) s := by
  obtain ⟨e, mid, he, hmore⟩ := gives_bind.1 hgives
  obtain ⟨semicolon, mid', hexpect, hpure⟩ := gives_bind.1 hmore
  obtain ⟨rfl, hsemicolon⟩ := gives_expect.1 hexpect
  obtain ⟨rfl, rfl⟩ := gives_pure.1 hpure
  obtain ⟨used, rfl, hused⟩ := h _ _ _ he
  exact ⟨used ++ [semicolon], by simp, .print hword hused hsemicolon⟩

theorem gives_returnStatement (h : Finds .expression expr) {ts rest : List Token} {s : RawStmt}
    {word : Token} (hword : word.kind = .keyword .returnWord)
    (hgives : Gives (returnStatement expr word) ts s rest) :
    ∃ used, ts = used ++ rest ∧ Reads (.statement false) (word :: used) s := by
  obtain ⟨e, used, mid, rfl, hused, hend⟩ := gives_perhaps h hgives
  obtain ⟨semicolon, mid', hexpect, hpure⟩ := gives_bind.1 hend
  obtain ⟨rfl, hsemicolon⟩ := gives_expect.1 hexpect
  obtain ⟨rfl, rfl⟩ := gives_pure.1 hpure
  exact ⟨used ++ [semicolon], by simp, .giveBack hword hused hsemicolon⟩

/-! ## Statements with statements inside -/

/-- What the parser gives is a statement, and no `else` that could belong to it is left. -/
def FindsStatement (p : Parser RawStmt) : Prop :=
  ∀ ts s rest, Gives p ts s rest → ∃ used opened, ts = used ++ rest ∧
    Reads (.statement opened) used s ∧ (opened = true → ¬ StartsWith (.keyword .elseWord) rest)

/-- What the parser gives is a declaration. -/
def FindsDeclaration (p : Parser (Option RawStmt)) : Prop :=
  ∀ ts o rest, Gives p ts o rest → ∃ s used, o = some s ∧ ts = used ++ rest ∧
    Reads .declaration used s

theorem gives_ifStatement (h : Finds .expression expr) (hinner : FindsStatement inner)
    {ts rest : List Token} {s : RawStmt} {word : Token} (hword : word.kind = .keyword .ifWord)
    (hgives : Gives (ifStatement expr inner) ts s rest) :
    ∃ used opened, ts = used ++ rest ∧ Reads (.statement opened) (word :: used) s ∧
      (opened = true → ¬ StartsWith (.keyword .elseWord) rest) := by
  obtain ⟨opening, mid, hopen, hmore⟩ := gives_bind.1 hgives
  obtain ⟨rfl, hopening⟩ := gives_expect.1 hopen
  obtain ⟨e, mid1, he, hmore1⟩ := gives_bind.1 hmore
  obtain ⟨cs, rfl, hcs⟩ := h _ _ _ he
  obtain ⟨closing, mid2, hclose, hmore2⟩ := gives_bind.1 hmore1
  obtain ⟨rfl, hclosing⟩ := gives_expect.1 hclose
  obtain ⟨yes, mid3, hyes, hmore3⟩ := gives_bind.1 hmore2
  obtain ⟨used, opened, rfl, hused, hopened⟩ := hinner _ _ _ hyes
  obtain ⟨o, mid4, ho, hmore4⟩ := gives_bind.1 hmore3
  obtain ⟨other, rfl, rfl, hother⟩ | ⟨rfl, rfl, helse⟩ := gives_accept.1 ho
  · -- an `else` comes, so the statement before it is not opened
    obtain ⟨no, mid5, hno, hpure⟩ := gives_bind.1 hmore4
    obtain ⟨rfl, rfl⟩ := gives_pure.1 hpure
    obtain ⟨no', hno', rfl⟩ := gives_map.1 hno
    obtain ⟨us, opened', rfl, hus, hopened'⟩ := hinner _ _ _ hno'
    have hclosed : opened = false := by
      cases opened with
      | false => rfl
      | true => exact absurd ⟨other, _, rfl, hother⟩ (hopened rfl)
    subst hclosed
    refine ⟨opening :: cs ++ closing :: used ++ other :: us, opened', by simp, ?_, hopened'⟩
    exact .ifElse hword hopening hcs hclosing hused hother hus
  · obtain ⟨no, mid5, hno, hpure⟩ := gives_bind.1 hmore4
    obtain ⟨rfl, rfl⟩ := gives_pure.1 hno
    obtain ⟨rfl, rfl⟩ := gives_pure.1 hpure
    refine ⟨opening :: cs ++ closing :: used, true, by simp, ?_, fun _ => helse⟩
    exact .ifThen hword hopening hcs hclosing hused

theorem gives_whileStatement (h : Finds .expression expr) (hinner : FindsStatement inner)
    {ts rest : List Token} {s : RawStmt} {word : Token} (hword : word.kind = .keyword .whileWord)
    (hgives : Gives (whileStatement expr inner) ts s rest) :
    ∃ used opened, ts = used ++ rest ∧ Reads (.statement opened) (word :: used) s ∧
      (opened = true → ¬ StartsWith (.keyword .elseWord) rest) := by
  obtain ⟨opening, mid, hopen, hmore⟩ := gives_bind.1 hgives
  obtain ⟨rfl, hopening⟩ := gives_expect.1 hopen
  obtain ⟨e, mid1, he, hmore1⟩ := gives_bind.1 hmore
  obtain ⟨cs, rfl, hcs⟩ := h _ _ _ he
  obtain ⟨closing, mid2, hclose, hmore2⟩ := gives_bind.1 hmore1
  obtain ⟨rfl, hclosing⟩ := gives_expect.1 hclose
  obtain ⟨body, mid3, hbody, hpure⟩ := gives_bind.1 hmore2
  obtain ⟨rfl, rfl⟩ := gives_pure.1 hpure
  obtain ⟨used, opened, rfl, hused, hopened⟩ := hinner _ _ _ hbody
  refine ⟨opening :: cs ++ closing :: used, opened, by simp, ?_, hopened⟩
  exact .whileLoop hword hopening hcs hclosing hused

theorem gives_forStatement (h : Finds .expression expr) (hinner : FindsStatement inner)
    {ts rest : List Token} {s : RawStmt} {word : Token} (hword : word.kind = .keyword .forWord)
    (hgives : Gives (forStatement expr inner) ts s rest) :
    ∃ used opened, ts = used ++ rest ∧ Reads (.statement opened) (word :: used) s ∧
      (opened = true → ¬ StartsWith (.keyword .elseWord) rest) := by
  obtain ⟨opening, mid, hopen, hmore⟩ := gives_bind.1 hgives
  obtain ⟨rfl, hopening⟩ := gives_expect.1 hopen
  -- whatever the initializer is, the clauses behind it are read in the same way
  have hclauses : ∀ (i : Option RawStmt) (is mid1 : List Token), Reads .initializer is i →
      Gives (do
        let condition ← if ← check .semicolon then pure none else some <$> expr
        let _ ← expect .semicolon .semicolonAfterLoopCondition
        let increment ← if ← check .rightParen then pure none else some <$> expr
        let _ ← expect .rightParen .parenAfterForClauses
        return forLoop i condition increment (← inner)) mid1 s rest →
      ∃ used opened, opening :: (is ++ mid1) = used ++ rest ∧
        Reads (.statement opened) (word :: used) s ∧
        (opened = true → ¬ StartsWith (.keyword .elseWord) rest) := by
    intro i is mid1 hi hclauses
    obtain ⟨c, cs, mid2, rfl, hcs, hmore1⟩ := gives_perhaps h hclauses
    obtain ⟨semicolon, mid3, hexpect, hmore2⟩ := gives_bind.1 hmore1
    obtain ⟨rfl, hsemicolon⟩ := gives_expect.1 hexpect
    obtain ⟨n, ns, mid4, rfl, hns, hmore3⟩ := gives_perhaps h hmore2
    obtain ⟨closing, mid5, hclose, hmore4⟩ := gives_bind.1 hmore3
    obtain ⟨rfl, hclosing⟩ := gives_expect.1 hclose
    obtain ⟨body, mid6, hbody, hpure⟩ := gives_bind.1 hmore4
    obtain ⟨rfl, rfl⟩ := gives_pure.1 hpure
    obtain ⟨used, opened, rfl, hused, hopened⟩ := hinner _ _ _ hbody
    refine ⟨opening :: is ++ cs ++ semicolon :: ns ++ closing :: used, opened, by simp, ?_, hopened⟩
    exact .forLoop hword hopening hi hcs hsemicolon hns hclosing hused
  obtain ⟨o, mid1, ho, hmore1⟩ := gives_bind.1 hmore
  obtain ⟨semicolon, rfl, rfl, hsemicolon⟩ | ⟨rfl, rfl, -⟩ := gives_accept.1 ho
  · obtain ⟨i, mid2, hi, hend⟩ := gives_bind.1 hmore1
    obtain ⟨rfl, rfl⟩ := gives_pure.1 hi
    exact hclauses none [semicolon] _ (.noInitializer hsemicolon) hend
  · obtain ⟨o, mid2, ho, hmore2⟩ := gives_bind.1 hmore1
    obtain ⟨varWord, rfl, rfl, hvar⟩ | ⟨rfl, rfl, -⟩ := gives_accept.1 ho
    · obtain ⟨i, mid3, hi, hend⟩ := gives_bind.1 hmore2
      obtain ⟨i', hi', rfl⟩ := gives_map.1 hi
      obtain ⟨is, rfl, his⟩ := gives_varDeclaration h hvar hi'
      exact hclauses (some i') (varWord :: is) _ (.varInitializer his) hend
    · obtain ⟨i, mid3, hi, hend⟩ := gives_bind.1 hmore2
      obtain ⟨i', hi', rfl⟩ := gives_map.1 hi
      obtain ⟨is, rfl, his⟩ := gives_expressionStatement h hi'
      exact hclauses (some i') is _ (.exprInitializer his) hend

end Statements

/-! ## Declarations -/

/-- Declarations one after the other, up to where the step stops. -/
theorem gives_many {inner : Parser (Option RawStmt)} (hinner : FindsDeclaration inner)
    {step : Parser (Option (Option RawStmt))}
    (hstep : ∀ ts o rest, Gives step ts o rest →
      (o = none ∧ rest = ts) ∨ ∃ o', o = some o' ∧ Gives inner ts o' rest)
    {n : Nat} {ts rest : List Token} {os : List (Option RawStmt)}
    (h : Gives (many step n) ts os rest) :
    ∃ used ss, ts = used ++ rest ∧ os = ss.map some ∧ Reads .declarations used ss := by
  induction n generalizing ts os with
  | zero =>
    obtain ⟨rfl, rfl⟩ := gives_pure.1 h
    exact ⟨[], [], rfl, rfl, .noDeclaration⟩
  | succ n ih =>
    obtain ⟨o, mid, ho, hmore⟩ := gives_bind.1 h
    obtain ⟨rfl, rfl⟩ | ⟨o', rfl, ho'⟩ := hstep _ _ _ ho
    · obtain ⟨rfl, rfl⟩ := gives_pure.1 hmore
      exact ⟨[], [], rfl, rfl, .noDeclaration⟩
    · obtain ⟨s, used, rfl, rfl, hused⟩ := hinner _ _ _ ho'
      obtain ⟨os', mid', hos, hpure⟩ := gives_bind.1 hmore
      obtain ⟨rfl, rfl⟩ := gives_pure.1 hpure
      obtain ⟨us, ss, rfl, rfl, hus⟩ := ih hos
      exact ⟨used ++ us, s :: ss, by simp, rfl, .declarations hused hus⟩

theorem reduceOption_map_some (ss : List RawStmt) : (ss.map some).reduceOption = ss := by
  show (ss.map some).filterMap id = ss
  rw [List.filterMap_map]
  exact List.filterMap_some

/-- One turn of a block: it stops before a closing brace and at the end. -/
theorem gives_blockItem {inner : Parser (Option RawStmt)} (ts : List Token)
    (o : Option (Option RawStmt)) (rest : List Token)
    (h : Gives (do
      match ← peek? with
      | none => return none
      | some t => if t.kind = .rightBrace then return none else some <$> inner) ts o rest) :
    (o = none ∧ rest = ts) ∨ ∃ o', o = some o' ∧ Gives inner ts o' rest := by
  obtain ⟨t?, mid, ht, hend⟩ := gives_bind.1 h
  cases ht
  cases hts : ts.head? with
  | none =>
    rw [hts] at hend
    exact Or.inl (gives_pure.1 hend)
  | some t =>
    rw [hts] at hend
    dsimp only at hend
    split at hend
    · exact Or.inl (gives_pure.1 hend)
    · obtain ⟨o', ho', rfl⟩ := gives_map.1 hend
      exact Or.inr ⟨o', rfl, ho'⟩

theorem gives_block {size : Nat} {inner : Parser (Option RawStmt)} (h : FindsDeclaration inner)
    {ts rest : List Token} {ss : List RawStmt} {opening : Token}
    (hopening : opening.kind = .leftBrace) (hgives : Gives (block size inner) ts ss rest) :
    ∃ used, ts = used ++ rest ∧ Reads .block (opening :: used) ss := by
  obtain ⟨os, mid, hos, hmore⟩ := gives_bind.1 hgives
  obtain ⟨closing, mid', hclose, hpure⟩ := gives_bind.1 hmore
  obtain ⟨rfl, hclosing⟩ := gives_expect.1 hclose
  obtain ⟨rfl, rfl⟩ := gives_pure.1 hpure
  obtain ⟨used, ss, rfl, rfl, hused⟩ := gives_many h gives_blockItem hos
  refine ⟨used ++ [closing], by simp, ?_⟩
  rw [reduceOption_map_some]
  exact .braces hopening hused hclosing

theorem gives_function {size : Nat} {inner : Parser (Option RawStmt)} (h : FindsDeclaration inner)
    {ts rest : List Token} {s : RawStmt} {word : Token}
    (hword : word.kind = .keyword .functionWord) (hgives : Gives (function size inner) ts s rest) :
    ∃ used, ts = used ++ rest ∧ Reads .declaration (word :: used) s := by
  obtain ⟨name, mid, hexpected, hmore⟩ := gives_bind.1 hgives
  obtain ⟨rfl, hname⟩ := gives_expect.1 hexpected
  obtain ⟨opening, mid1, hopen, hmore1⟩ := gives_bind.1 hmore
  obtain ⟨rfl, hopening⟩ := gives_expect.1 hopen
  have hbody : ∀ ps names mid3, Parameters ps names → Gives (do
      let _ ← expect .rightParen .parenAfterParameters
      let _ ← expect .leftBrace .braceBeforeBody
      return Stmt.function name names (← block size inner)) mid3 s rest →
      ∃ used, name :: opening :: (ps ++ mid3) = used ++ rest ∧
        Reads .declaration (word :: used) s := by
    intro ps names mid3 hps hend
    obtain ⟨closing, mid4, hclose, hmore3⟩ := gives_bind.1 hend
    obtain ⟨rfl, hclosing⟩ := gives_expect.1 hclose
    obtain ⟨brace, mid5, hexpected', hmore4⟩ := gives_bind.1 hmore3
    obtain ⟨rfl, hbrace⟩ := gives_expect.1 hexpected'
    obtain ⟨ss, mid6, hss, hpure⟩ := gives_bind.1 hmore4
    obtain ⟨rfl, rfl⟩ := gives_pure.1 hpure
    obtain ⟨us, rfl, hus⟩ := gives_block h hbrace hss
    refine ⟨name :: opening :: ps ++ closing :: brace :: us, by simp, ?_⟩
    exact .function hword hname hopening hps hclosing hus
  obtain ⟨b, mid2, hb, hmore2⟩ := gives_bind.1 hmore1
  obtain ⟨rfl, -⟩ := gives_check.1 hb
  cases b with
  | true =>
    obtain ⟨names, mid3, hnames, hend⟩ := gives_bind.1 hmore2
    obtain ⟨rfl, rfl⟩ := gives_pure.1 hnames
    exact hbody [] [] _ .none hend
  | false =>
    obtain ⟨names, mid3, hnames, hend⟩ := gives_bind.1 hmore2
    obtain ⟨ps, rfl, hps, hmost⟩ := gives_commaSeparated (P := IsName) (fun ts t rest ht => by
      obtain ⟨rfl, hk⟩ := gives_expect.1 ht
      exact ⟨[t], rfl, rfl, hk⟩) hnames
    exact hbody ps names _ (.some hps hmost) hend

theorem finds_statement_and_declaration (size budget : Nat) :
    FindsStatement (statement size budget) ∧ FindsDeclaration (declaration size budget) := by
  induction budget using Nat.strongRecOn with
  | _ budget ih =>
    refine ⟨?_, ?_⟩
    · intro ts s rest hgives
      obtain hlt | ⟨budget, rfl⟩ := lt_or_eq_add 2 budget
      · rw [statement_of_lt hlt] at hgives
        exact absurd hgives not_gives_tooDeep
      have hexpr := finds_expression size budget
      obtain ⟨hinner, hdeclaration⟩ := ih budget (by omega)
      cases ts with
      | nil =>
        obtain ⟨used, hused, hreads⟩ := gives_expressionStatement hexpr hgives
        exact ⟨used, false, hused, .exprStmt hreads, by simp⟩
      | cons t us =>
        unfold Gives at hgives
        rw [statement_cons] at hgives
        split at hgives
        · rename_i hk
          obtain ⟨used, opened, rfl, hused⟩ := gives_forStatement hexpr hinner hk hgives
          exact ⟨t :: used, opened, rfl, hused⟩
        split at hgives
        · rename_i hk
          obtain ⟨used, opened, rfl, hused⟩ := gives_ifStatement hexpr hinner hk hgives
          exact ⟨t :: used, opened, rfl, hused⟩
        split at hgives
        · rename_i hk
          obtain ⟨used, rfl, hused⟩ := gives_printStatement hexpr hk hgives
          exact ⟨t :: used, false, rfl, hused, by simp⟩
        split at hgives
        · rename_i hk
          obtain ⟨used, rfl, hused⟩ := gives_returnStatement hexpr hk hgives
          exact ⟨t :: used, false, rfl, hused, by simp⟩
        split at hgives
        · rename_i hk
          obtain ⟨used, opened, rfl, hused⟩ := gives_whileStatement hexpr hinner hk hgives
          exact ⟨t :: used, opened, rfl, hused⟩
        split at hgives
        · rename_i hk
          obtain ⟨ss, mid, hss, hpure⟩ := gives_bind.1 hgives
          obtain ⟨rfl, rfl⟩ := gives_pure.1 hpure
          obtain ⟨used, rfl, hused⟩ := gives_block hdeclaration hk hss
          exact ⟨t :: used, false, rfl, .block hused, by simp⟩
        · obtain ⟨used, hused, hreads⟩ := gives_expressionStatement hexpr hgives
          exact ⟨used, false, hused, .exprStmt hreads, by simp⟩
    · intro ts o rest hgives
      obtain hlt | ⟨budget, rfl⟩ := lt_or_eq_add 3 budget
      · rw [declaration_of_lt hlt] at hgives
        exact absurd hgives not_gives_tooDeep
      rw [declaration] at hgives
      obtain ⟨s, rfl, hs⟩ := (gives_recovering (loud_declarationBody size budget)).1 hgives
      obtain ⟨o, mid, ho, hmore⟩ := gives_bind.1 hs
      obtain ⟨word, rfl, rfl, hword⟩ | ⟨rfl, rfl, -⟩ := gives_accept.1 ho
      · obtain ⟨used, rfl, hused⟩ := gives_function (ih budget (by omega)).2 hword hmore
        exact ⟨s, word :: used, rfl, rfl, hused⟩
      · obtain ⟨o, mid', ho, hmore'⟩ := gives_bind.1 hmore
        obtain ⟨word, rfl, rfl, hword⟩ | ⟨rfl, rfl, -⟩ := gives_accept.1 ho
        · obtain ⟨used, rfl, hused⟩ :=
            gives_varDeclaration (finds_expression size (budget + 1)) hword hmore'
          exact ⟨s, word :: used, rfl, rfl, .varDecl hused⟩
        · obtain ⟨used, opened, rfl, hused, -⟩ := (ih (budget + 2) (by omega)).1 _ _ _ hmore'
          exact ⟨s, used, rfl, rfl, .statement hused⟩

end Scriptling.Parser
