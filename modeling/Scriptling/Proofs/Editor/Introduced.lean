-- The declarations of a program stand in the order of its tokens. `introduced` lists the names
-- behind the tokens with which a declaration starts; whatever a parser gives, also where it
-- recovered on the way, declares some of the names that the tokens it took introduce, in order.
import Scriptling.Proofs.Editor.Declared
import Scriptling.Proofs.Grammar.Composition
import Scriptling.Proofs.Source.Tiling

namespace Scriptling

open Editor

/-! ## Names that tokens introduce -/

/-- What the name behind a token of this kind is, if it is declared there. -/
def Kind.introduces? : Kind → Option DeclarationKind
  | .keyword .varWord => some .var
  | .keyword .functionWord => some .function
  | .leftParen | .comma => some .parameter
  | _ => none

/-- The names in a row of tokens that may be declared, each behind the token that says so. -/
def introduced : List Token → List (DeclarationKind × Token)
  | t :: name :: rest =>
    match t.kind.introduces? with
    | some kind =>
      if name.kind = .identifier then (kind, name) :: introduced (name :: rest)
      else introduced (name :: rest)
    | none => introduced (name :: rest)
  | [_] | [] => []

theorem introduced_cons (t : Token) (ts : List Token) :
    (introduced ts).Sublist (introduced (t :: ts)) := by
  cases ts with
  | nil => exact List.nil_sublist _
  | cons name rest =>
    rw [introduced.eq_def (t :: name :: rest)]
    dsimp only
    split
    · split
      · exact List.sublist_cons_self _ _
      · exact List.Sublist.refl _
    · exact List.Sublist.refl _

theorem introduced_of {t name : Token} {kind : DeclarationKind} (h : t.kind.introduces? = some kind)
    (hname : name.kind = .identifier) (rest : List Token) :
    introduced (t :: name :: rest) = (kind, name) :: introduced (name :: rest) := by
  simp [introduced, h, hname]

/-- Two rows of tokens put together introduce what each of them does. -/
theorem introduced_append (ts us : List Token) :
    (introduced ts ++ introduced us).Sublist (introduced (ts ++ us)) := by
  fun_induction introduced ts with
  | case1 t name rest kind hkind hname ih =>
    have hwhole := introduced_of hkind hname (rest ++ us)
    rw [List.cons_append, List.cons_append, List.cons_append, hwhole]
    exact ih.cons_cons _
  | case2 t name rest kind hkind hname ih =>
    exact ih.trans (introduced_cons t _)
  | case3 t name rest hkind ih => exact ih.trans (introduced_cons t _)
  | case4 t => exact introduced_cons t us
  | case5 => exact List.Sublist.refl _

theorem introduced_sublist (ts : List Token) :
    ((introduced ts).map Prod.snd).Sublist ts.tail := by
  fun_induction introduced ts with
  | case1 t name rest kind hkind hname ih => exact ih.cons_cons _
  | case2 t name rest kind hkind hname ih => exact ih.cons _
  | case3 t name rest hkind ih => exact ih.cons _
  | case4 | case5 => exact List.nil_sublist _

theorem introduced_identifier (ts : List Token) : ∀ d ∈ introduced ts, d.2.kind = .identifier := by
  fun_induction introduced ts with
  | case1 t name rest kind hkind hname ih => exact List.forall_mem_cons.2 ⟨hname, ih⟩
  | case2 t name rest kind hkind hname ih => exact ih
  | case3 t name rest hkind ih => exact ih
  | case4 | case5 => exact List.forall_mem_nil _

section Rows

variable {names more : List (DeclarationKind × Token)} {ts us : List Token}

theorem introduced_left (h : names.Sublist (introduced ts)) :
    names.Sublist (introduced (ts ++ us)) :=
  h.trans ((List.sublist_append_left _ _).trans (introduced_append ts us))

theorem introduced_right (h : names.Sublist (introduced us)) :
    names.Sublist (introduced (ts ++ us)) :=
  h.trans ((List.sublist_append_right _ _).trans (introduced_append ts us))

theorem introduced_both (h : names.Sublist (introduced ts)) (h' : more.Sublist (introduced us)) :
    (names ++ more).Sublist (introduced (ts ++ us)) :=
  (h.append h').trans (introduced_append ts us)

end Rows

/-! ## What a statement declares -/

/-- The names that a statement declares, at any depth. -/
def Stmt.names {ι : Type} (s : Stmt ι) : List (DeclarationKind × Token) :=
  (allDeclared s).map fun d => (d.kind, d.name)

theorem Stmt.names_eq {ι : Type} (s : Stmt ι) :
    s.names = (own s).map (fun d => (d.kind, d.name)) ++ (parts s).flatMap Stmt.names := by
  rw [Stmt.names, allDeclared_eq, List.map_append, List.map_flatMap]
  rfl

section Forms

variable {ι : Type}

theorem Stmt.names_block (body : List (Stmt ι)) :
    (Stmt.block body).names = body.flatMap Stmt.names := by
  rw [names_eq]
  rfl

theorem Stmt.names_branch (condition : Expr ι) (yes : Stmt ι) (no : Option (Stmt ι)) :
    (Stmt.branch condition yes no).names = yes.names ++ no.elim [] Stmt.names := by
  rw [names_eq]
  cases no <;> simp [own, parts]

theorem Stmt.names_loop (condition : Expr ι) (body : Stmt ι) :
    (Stmt.loop condition body).names = body.names := by
  rw [names_eq]
  simp [own, parts]

theorem Stmt.names_function (name : Token) (parameters : List Token) (body : List (Stmt ι)) :
    (Stmt.function name parameters body).names =
      (.function, name) :: (parameters.map (DeclarationKind.parameter, ·)
        ++ body.flatMap Stmt.names) := by
  rw [names_eq]
  simp [own, parts, Function.comp_def]

end Forms

/-- A `for` declares what its initializer and its body declare. -/
theorem Parser.names_forLoop (i : Option RawStmt) (c n : Option RawExpr) (s : RawStmt) :
    (forLoop i c n s).names = (i.elim [] Stmt.names) ++ s.names := by
  cases i <;> cases n <;>
    simp [forLoop, Stmt.names_block, Stmt.names_loop, Stmt.names_eq (.expression _), own, parts]

namespace Parser

variable {α β : Type}

/-! ## The tokens that a parser takes -/

/-- Where the parser gives a result, `P` holds of the tokens that it took and of the result. -/
def Yields (P : List Token → α → Prop) (p : Parser α) : Prop :=
  ∀ ts a, (p ts).outcome = .ok a → ∃ taken, ts = taken ++ (p ts).rest ∧ P taken a

section Laws

variable {P : List Token → α → Prop} {Q : List Token → β → Prop} {p : Parser α}

theorem Yields.imp {P' : List Token → α → Prop} (h : Yields P p)
    (himp : ∀ taken a, P taken a → P' taken a) : Yields P' p := by
  intro ts a hok
  obtain ⟨taken, htaken, hP⟩ := h ts a hok
  exact ⟨taken, htaken, himp taken a hP⟩

theorem yields_pure {a : α} (h : P [] a) : Yields P (pure a) := by
  rintro ts b ⟨⟩
  exact ⟨[], rfl, h⟩

theorem yields_of_suffix (h : ∀ ts, (p ts).rest <:+ ts) : Yields (fun _ _ => True) p := by
  intro ts a _
  obtain ⟨taken, htaken⟩ := h ts
  exact ⟨taken, htaken.symm, trivial⟩

theorem Yields.bind {f : α → Parser β} (hp : Yields P p)
    (hf : ∀ taken a, P taken a → Yields (fun more b => Q (taken ++ more) b) (f a)) :
    Yields Q (p >>= f) := by
  intro ts b hok
  have htaken := hp ts
  rcases h : p ts with ⟨u | a, mid, complaints⟩ <;> rw [h] at htaken
  · rw [bind_of_error h] at hok
    cases hok
  · rw [bind_of_ok h] at hok ⊢
    obtain ⟨taken, rfl, hP⟩ := htaken a rfl
    obtain ⟨more, hmore, hQ⟩ := hf taken a hP mid b hok
    dsimp only at hmore ⊢
    refine ⟨taken ++ more, ?_, hQ⟩
    rw [List.append_assoc, ← hmore]

theorem Yields.map {f : α → β} (hp : Yields P p) (hf : ∀ taken a, P taken a → Q taken (f a)) :
    Yields Q (f <$> p) :=
  hp.bind fun taken a h => yields_pure (by rw [List.append_nil]; exact hf taken a h)

theorem yields_tooDeep : Yields P (tooDeep : Parser α) := fun _ _ hok => nomatch hok

theorem yields_check (k : Kind) : Yields (fun taken _ => taken = []) (check k) :=
  fun _ _ _ => ⟨[], rfl, rfl⟩

theorem yields_peek : Yields (fun taken _ => taken = []) peek? := fun _ _ _ => ⟨[], rfl, rfl⟩

theorem yields_complain (problem : Problem) :
    Yields (fun taken _ => taken = []) (complain problem) := fun _ _ _ => ⟨[], rfl, rfl⟩

theorem yields_accept (k : Kind) :
    Yields (fun taken o => taken = o.toList ∧ ∀ t ∈ o, t.kind = k) (accept k) := by
  intro ts o hok
  cases ts with
  | nil =>
    cases hok
    exact ⟨[], rfl, rfl, by simp⟩
  | cons t us =>
    have haccept : accept k (t :: us) =
        if t.kind == k then ⟨.ok (some t), us, []⟩ else ⟨.ok none, t :: us, []⟩ := rfl
    rw [haccept] at hok ⊢
    split at hok
    · rename_i hk
      cases hok
      rw [if_pos hk]
      exact ⟨[t], rfl, rfl, by simpa using hk⟩
    · rename_i hk
      cases hok
      rw [if_neg hk]
      exact ⟨[], rfl, rfl, by simp⟩

theorem yields_expect (k : Kind) (problem : Problem) :
    Yields (fun taken t => taken = [t] ∧ t.kind = k) (expect k problem) := by
  intro ts t hok
  rw [expect_eq] at hok ⊢
  cases ts with
  | nil => cases hok
  | cons u us =>
    dsimp only at hok ⊢
    split at hok
    · rename_i hk
      cases hok
      rw [if_pos hk]
      exact ⟨[t], rfl, rfl, hk⟩
    · cases hok

end Laws

/-- The names of the result are among those that the tokens introduce, in order. -/
abbrev Orders (names : α → List (DeclarationKind × Token)) (p : Parser α) : Prop :=
  Yields (fun taken a => (names a).Sublist (introduced taken)) p

/-- The same, where a token of the kind `k` stands before those that are taken. -/
abbrev OrdersBehind (k : Kind) (names : α → List (DeclarationKind × Token)) (p : Parser α) : Prop :=
  Yields (fun taken a => ∀ t : Token, t.kind = k → (names a).Sublist (introduced (t :: taken))) p

theorem Yields.some {names : α → List (DeclarationKind × Token)} {p : Parser α}
    (h : Orders names p) : Orders (fun o => o.elim [] names) (some <$> p) :=
  h.map fun _ _ ha => ha

/-- A token that stands before those that are taken does no harm. -/
theorem Yields.behind {names : α → List (DeclarationKind × Token)} {p : Parser α} {t : Token}
    {us : List Token} {a : α} (h : Orders names p) (hok : (p us).outcome = .ok a) :
    ∃ taken, t :: us = taken ++ (p us).rest ∧ (names a).Sublist (introduced taken) := by
  obtain ⟨taken, htaken, hnames⟩ := h us a hok
  exact ⟨t :: taken, congrArg (t :: ·) htaken, hnames.trans (introduced_cons t taken)⟩

theorem orders_many {names : α → List (DeclarationKind × Token)} {step : Parser (Option α)}
    (h : Orders (fun o => o.elim [] names) step) (n : Nat) :
    Orders (fun as => as.flatMap names) (many step n) := by
  induction n with
  | zero => exact yields_pure (List.nil_sublist _)
  | succ n ih =>
    refine Yields.bind h fun taken o ho => ?_
    cases o with
    | none => exact yields_pure (List.nil_sublist _)
    | some a =>
      refine Yields.bind ih fun more as has => yields_pure ?_
      rw [List.append_nil]
      exact introduced_both ho has

/-! ## Declarations -/

/-- An expression takes tokens, and declares nothing. -/
def Plain (expr : Parser RawExpr) : Prop := Yields (fun _ _ => True) expr

theorem plain_expression (size budget : Nat) : Plain (expression size budget) := by
  have hexpr : Overlooks [] size 1 false (expression size budget) (expression size budget) :=
    overlooks_expression (Nat.le_refl size) budget
  exact yields_of_suffix hexpr.suffix

section Parameters

def parameterNames (parameters : List Token) : List (DeclarationKind × Token) :=
  parameters.map (DeclarationKind.parameter, ·)

/-- Each further parameter stands behind a comma. -/
theorem orders_moreItems (problem problem' : Problem) (n count : Nat) :
    Orders parameterNames (moreItems (expect .identifier problem) problem' n count) := by
  induction n generalizing count with
  | zero => exact yields_pure (List.nil_sublist _)
  | succ n ih =>
    refine (yields_accept _).bind ?_
    rintro _ (_ | comma) ⟨rfl, hcomma⟩
    · exact yields_pure (List.nil_sublist _)
    · have hitems : Yields (fun more as => (parameterNames as).Sublist (introduced (comma :: more)))
          (do
            let a ← expect .identifier problem
            let rest ← moreItems (expect .identifier problem) problem' n (count + 1)
            return a :: rest) := by
        refine (yields_expect _ _).bind ?_
        rintro _ name ⟨rfl, hname⟩
        refine (ih (count + 1)).bind fun more as has => yields_pure ?_
        have hkind : comma.kind.introduces? = some .parameter := by rw [hcomma comma rfl]; rfl
        rw [List.append_nil, List.singleton_append, introduced_of hkind hname]
        exact (has.trans (introduced_cons name more)).cons_cons _
      dsimp only
      split
      · refine (yields_complain _).bind ?_
        rintro _ - rfl
        exact hitems
      · exact hitems

theorem orders_parameters (size : Nat) (problem problem' : Problem) :
    OrdersBehind .leftParen parameterNames
      (commaSeparated size (expect .identifier problem) problem') := by
  refine (yields_expect _ _).bind ?_
  rintro _ name ⟨rfl, hname⟩
  refine (orders_moreItems problem problem' size 1).bind fun more as has => yields_pure ?_
  intro t ht
  have hkind : t.kind.introduces? = some .parameter := by rw [ht]; rfl
  rw [List.append_nil, List.singleton_append, introduced_of hkind hname]
  exact (has.trans (introduced_cons name more)).cons_cons _

end Parameters

section Statements

variable {expr : Parser RawExpr} {inner : Parser RawStmt}

theorem Plain.perhaps (h : Plain expr) : Yields (fun _ _ => True) (some <$> expr) :=
  h.map fun _ _ _ => trivial

/-- An expression that is left out where a token of the kind `k` comes. -/
theorem yields_perhaps (h : Plain expr) (k : Kind) {P : List Token → RawStmt → Prop}
    {f : Option RawExpr → Parser RawStmt}
    (hf : ∀ taken e, Yields (fun more s => P (taken ++ more) s) (f e)) :
    Yields P (check k >>= fun stop =>
      if stop = true then pure none >>= f else (some <$> expr) >>= f) := by
  refine (yields_check k).bind ?_
  rintro _ (_ | _) rfl
  · exact h.perhaps.bind fun taken e _ => hf taken e
  · exact hf [] none

theorem orders_varDeclaration (h : Plain expr) :
    OrdersBehind (.keyword .varWord) Stmt.names (varDeclaration expr) := by
  refine (yields_expect _ _).bind ?_
  rintro _ name ⟨rfl, hname⟩
  have hend : ∀ (taken : List Token) (e : Option RawExpr),
      Yields (fun more s => ∀ t : Token, t.kind = .keyword .varWord →
          (Stmt.names s).Sublist (introduced (t :: ([name] ++ (taken ++ more)))))
        (do
          let _ ← expect .semicolon .semicolonAfterVariable
          return Stmt.var name e) := by
    intro taken e
    refine (yields_expect _ _).bind fun _ _ _ => yields_pure fun t ht => ?_
    have hkind : t.kind.introduces? = some .var := by rw [ht]; rfl
    rw [List.singleton_append, introduced_of hkind hname, Stmt.names_eq]
    exact (List.nil_sublist _).cons_cons _
  refine (yields_accept _).bind ?_
  rintro _ (_ | equals) ⟨rfl, -⟩
  · exact hend [] none
  · exact h.perhaps.bind fun taken e _ => hend (equals :: taken) e

theorem orders_expressionStatement (h : Plain expr) :
    Orders Stmt.names (expressionStatement expr) :=
  Yields.bind h fun _ _ _ => (yields_expect _ _).bind fun _ _ _ =>
    yields_pure (List.nil_sublist _)

theorem orders_printStatement (h : Plain expr) : Orders Stmt.names (printStatement expr) :=
  Yields.bind h fun _ _ _ => (yields_expect _ _).bind fun _ _ _ =>
    yields_pure (List.nil_sublist _)

theorem orders_returnStatement (h : Plain expr) (keyword : Token) :
    Orders Stmt.names (returnStatement expr keyword) :=
  yields_perhaps h _ fun _ _ => (yields_expect _ _).bind fun _ _ _ =>
    yields_pure (List.nil_sublist _)

theorem orders_ifStatement (h : Plain expr) (hinner : Orders Stmt.names inner) :
    Orders Stmt.names (ifStatement expr inner) := by
  refine (yields_expect _ _).bind fun opening _ _ => Yields.bind h fun condition e _ =>
    (yields_expect _ _).bind fun closing _ _ => hinner.bind fun yes s hs =>
    (yields_accept _).bind ?_
  rintro word (_ | _) -
  · refine yields_pure ?_
    rw [Stmt.names_branch]
    simpa using introduced_right (introduced_right (introduced_right (introduced_left hs)))
  · refine hinner.some.bind fun no o hno => yields_pure ?_
    rw [Stmt.names_branch]
    have hboth : (s.names ++ o.elim [] Stmt.names).Sublist (introduced (yes ++ (word ++ no))) :=
      introduced_both hs (introduced_right hno)
    simpa using introduced_right (introduced_right (introduced_right hboth))

theorem orders_whileStatement (h : Plain expr) (hinner : Orders Stmt.names inner) :
    Orders Stmt.names (whileStatement expr inner) := by
  refine (yields_expect _ _).bind fun opening _ _ => Yields.bind h fun condition e _ =>
    (yields_expect _ _).bind fun closing _ _ => hinner.bind fun body s hs => yields_pure ?_
  rw [Stmt.names_loop]
  simpa using introduced_right (introduced_right (introduced_right hs))

/-- The increment stands between the initializer and the body, and declares nothing. -/
theorem orders_forStatement (h : Plain expr) (hinner : Orders Stmt.names inner) :
    Orders Stmt.names (forStatement expr inner) := by
  have hclauses : ∀ (taken : List Token) (i : Option RawStmt),
      (i.elim [] Stmt.names).Sublist (introduced taken) →
      Yields (fun more s => (Stmt.names s).Sublist (introduced (taken ++ more)))
        (do
          let condition ← if ← check .semicolon then pure none else some <$> expr
          let _ ← expect .semicolon .semicolonAfterLoopCondition
          let increment ← if ← check .rightParen then pure none else some <$> expr
          let _ ← expect .rightParen .parenAfterForClauses
          return forLoop i condition increment (← inner)) := by
    intro taken i hi
    refine yields_perhaps h _ fun t₁ c => (yields_expect _ _).bind fun t₂ _ _ =>
      yields_perhaps h _ fun t₃ n => (yields_expect _ _).bind fun t₄ _ _ =>
      hinner.bind fun body s hs => yields_pure ?_
    rw [names_forLoop]
    have hbody : s.names.Sublist (introduced (t₁ ++ t₂ ++ t₃ ++ t₄ ++ body)) :=
      introduced_right hs
    simpa using introduced_both hi hbody
  refine (yields_expect _ _).bind fun opening _ _ => (yields_accept _).bind ?_
  rintro _ (_ | semicolon) ⟨rfl, -⟩
  · refine (yields_accept _).bind ?_
    rintro _ (_ | word) ⟨rfl, hword⟩
    · refine (orders_expressionStatement h).some.bind fun taken i hi => ?_
      refine (hclauses (opening ++ taken) i (introduced_right hi)).imp fun more s hs => ?_
      simpa using hs
    · have hvar : OrdersBehind (.keyword .varWord) (fun o => o.elim [] Stmt.names)
          (some <$> varDeclaration expr) := (orders_varDeclaration h).map fun _ _ hs => hs
      refine hvar.bind fun taken i hi => ?_
      have hi' := hi word (hword word rfl)
      refine (hclauses (opening ++ word :: taken) i (introduced_right hi')).imp fun more s hs => ?_
      simpa using hs
  · refine (hclauses (opening ++ [semicolon]) none (List.nil_sublist _)).imp fun more s hs => ?_
    simpa using hs

/-! ### Declarations that recover -/

theorem Yields.recovering {names : α → List (DeclarationKind × Token)} {p : Parser α}
    (h : Orders names p) (hsuffix : ∀ ts, (recovering p ts).rest <:+ ts) :
    Orders (fun o => o.elim [] names) (recovering p) := by
  intro ts o hok
  cases o with
  | none =>
    obtain ⟨taken, htaken⟩ := hsuffix ts
    exact ⟨taken, htaken.symm, List.nil_sublist _⟩
  | some a =>
    have htaken := h ts
    rcases hp : p ts with ⟨(_ | _) | b, mid, complaints⟩ <;> rw [hp] at htaken
    · rw [recovering_of_malformed hp] at hok
      cases hok
    · rw [recovering_of_tooDeep hp] at hok
      cases hok
    · rw [recovering_of_ok hp] at hok ⊢
      cases hok
      exact htaken a rfl

theorem orders_blockItem {inner : Parser (Option RawStmt)}
    (h : Orders (fun o => o.elim [] Stmt.names) inner) :
    Orders (fun oo => oo.elim [] fun o => o.elim [] Stmt.names) (blockItem inner) := by
  refine yields_peek.bind ?_
  rintro _ (_ | t) rfl
  · exact yields_pure (List.nil_sublist _)
  · dsimp only
    split
    · exact yields_pure (List.nil_sublist _)
    · exact h.some

theorem names_reduceOption (os : List (Option RawStmt)) :
    os.reduceOption.flatMap Stmt.names = os.flatMap fun o => o.elim [] Stmt.names := by
  induction os with
  | nil => rfl
  | cons o os ih =>
    cases o <;> simp [List.reduceOption_cons_of_none, List.reduceOption_cons_of_some, ih]

theorem orders_block (size : Nat) {inner : Parser (Option RawStmt)}
    (h : Orders (fun o => o.elim [] Stmt.names) inner) :
    Orders (fun ss => ss.flatMap Stmt.names) (block size inner) := by
  refine (orders_many (orders_blockItem h) size).bind fun taken os hos =>
    (yields_expect _ _).bind fun closing _ _ => yields_pure ?_
  dsimp only
  rw [names_reduceOption]
  exact introduced_left hos

theorem orders_function (size : Nat) {inner : Parser (Option RawStmt)}
    (h : Orders (fun o => o.elim [] Stmt.names) inner) :
    OrdersBehind (.keyword .functionWord) Stmt.names (function size inner) := by
  refine (yields_expect _ _).bind ?_
  rintro _ name ⟨rfl, hname⟩
  refine (yields_expect _ _).bind ?_
  rintro _ opening ⟨rfl, hopening⟩
  have hbody : ∀ (taken ps : List Token),
      (parameterNames ps).Sublist (introduced (opening :: taken)) →
      Yields (fun more s => ∀ t : Token, t.kind = .keyword .functionWord →
          (Stmt.names s).Sublist (introduced (t :: ([name] ++ ([opening] ++ (taken ++ more))))))
        (do
          let _ ← expect .rightParen .parenAfterParameters
          let _ ← expect .leftBrace .braceBeforeBody
          return Stmt.function name ps (← block size inner)) := by
    intro taken ps hps
    refine (yields_expect _ _).bind fun closing _ _ => (yields_expect _ _).bind fun brace _ _ =>
      (orders_block size h).bind fun body ss hss => yields_pure fun t ht => ?_
    have hkind : t.kind.introduces? = some .function := by rw [ht]; rfl
    have hrest : (ss.flatMap Stmt.names).Sublist (introduced (closing ++ (brace ++ body))) :=
      introduced_right (introduced_right hss)
    rw [List.singleton_append, introduced_of hkind hname, Stmt.names_function, List.append_nil]
    exact ((introduced_both hps hrest).trans (introduced_cons name _)).cons_cons _
  refine (yields_check _).bind ?_
  rintro _ (_ | _) rfl
  · refine (orders_parameters size _ _).bind fun taken ps hps => ?_
    exact hbody taken ps (hps opening hopening)
  · exact hbody [] [] (List.nil_sublist _)

end Statements

theorem declaration_suffix (size budget : Nat) (ts : List Token) :
    (declaration size budget ts).rest <:+ ts := by
  obtain ⟨p, p', hp, heq, -⟩ :=
    (overlooks_statement_and_declaration (Nat.le_refl size) (not_startsWith_nil _) budget).2
  rw [heq]
  exact recovering_suffix hp ts

theorem orders_statement_and_declaration (size budget : Nat) :
    Orders Stmt.names (statement size budget) ∧
      Orders (fun o => o.elim [] Stmt.names) (declaration size budget) := by
  induction budget using Nat.strongRecOn with
  | _ budget ih =>
    refine ⟨?_, ?_⟩
    · obtain hlt | ⟨budget, rfl⟩ := lt_or_eq_add 2 budget
      · rw [statement_of_lt hlt]
        exact yields_tooDeep
      have hexpr := plain_expression size budget
      obtain ⟨hinner, hdeclaration⟩ := ih budget (by omega)
      have hblock : Orders Stmt.names (blockStatement size (declaration size budget)) := by
        refine (orders_block size hdeclaration).bind fun taken ss hss => yields_pure ?_
        rwa [Stmt.names_block, List.append_nil]
      intro ts s hok
      cases ts with
      | nil => exact orders_expressionStatement hexpr [] s hok
      | cons t us =>
        rw [statement_cons] at hok ⊢
        split_ifs at hok ⊢
        · exact (orders_forStatement hexpr hinner).behind hok
        · exact (orders_ifStatement hexpr hinner).behind hok
        · exact (orders_printStatement hexpr).behind hok
        · exact (orders_returnStatement hexpr t).behind hok
        · exact (orders_whileStatement hexpr hinner).behind hok
        · exact hblock.behind hok
        · exact orders_expressionStatement hexpr _ s hok
    · obtain hlt | ⟨budget, rfl⟩ := lt_or_eq_add 3 budget
      · rw [declaration_of_lt hlt]
        exact yields_tooDeep
      have hsuffix := declaration_suffix size (budget + 3)
      rw [declaration] at hsuffix ⊢
      refine Yields.recovering ((yields_accept _).bind ?_) hsuffix
      rintro _ (_ | word) ⟨rfl, hword⟩
      · refine (yields_accept _).bind ?_
        rintro _ (_ | word) ⟨rfl, hword⟩
        · exact (ih (budget + 2) (by omega)).1
        · exact (orders_varDeclaration (plain_expression size _)).imp
            fun _ _ hs => hs word (hword word rfl)
      · exact (orders_function size (ih budget (by omega)).2).imp
          fun _ _ hs => hs word (hword word rfl)

theorem orders_topLevel (size budget : Nat) :
    Orders (fun o => o.elim [] Stmt.names) (topLevel size budget) := by
  intro ts o hok
  have hsuffix := declaration_suffix size budget ts
  have horders := (orders_statement_and_declaration size budget).2 ts
  rcases hd : declaration size budget ts with ⟨u | o', rest, complaints⟩ <;>
    rw [hd] at hsuffix horders
  · rw [topLevel_of_error hd] at hok ⊢
    cases hok
    obtain ⟨taken, htaken⟩ := (synchronize_suffix rest).trans hsuffix
    exact ⟨taken, htaken.symm, List.nil_sublist _⟩
  · rw [topLevel_of_ok hd] at hok ⊢
    exact horders o hok

theorem orders_topItem {inner : Parser (Option RawStmt)}
    (h : Orders (fun o => o.elim [] Stmt.names) inner) :
    Orders (fun oo => oo.elim [] fun o => o.elim [] Stmt.names) (topItem inner) := by
  refine yields_peek.bind ?_
  rintro _ (_ | t) rfl
  · exact yields_pure (List.nil_sublist _)
  · exact h.some

/-- Whatever the tokens are, the statements that are kept declare names in their order. -/
theorem parse_names (limit : Nat) (ts : List Token) :
    ((parse limit ts).statements.flatMap Stmt.names).Sublist (introduced ts) := by
  obtain ⟨os, complaints, hmany⟩ := many_topLevel ts.length limit (Nat.le_refl ts.length)
  have horders := orders_many (orders_topItem (orders_topLevel ts.length limit)) ts.length ts os
  rw [hmany] at horders
  obtain ⟨taken, htaken, hnames⟩ := horders rfl
  rw [List.append_nil] at htaken
  rw [parse_eq hmany, names_reduceOption, htaken]
  exact hnames

end Parser

/-! ## The index of a text -/

namespace Editor

theorem placesFrom_names (ss : List RawStmt) :
    (placesFrom 0 ss).map (fun p => (p.declared.kind, p.declared.name)) =
      ss.flatMap Stmt.names := by
  have hnames := congrArg (List.map fun d : Declared => (d.kind, d.name)) (placesFrom_declared ss 0)
  rw [List.map_map, List.map_flatMap] at hnames
  exact hnames

/-- The places of the statements that are kept stand in the order of the tokens. -/
theorem places_sublist (text : String) :
    ((placesFrom 0 (read nestingLimit text).statements).map
      fun p => (p.declared.kind, p.declared.name)).Sublist (introduced (lex text).tokens) := by
  rw [placesFrom_names]
  exact Parser.parse_names nestingLimit (lex text).tokens

theorem places_names_sublist (text : String) :
    ((placesFrom 0 (read nestingLimit text).statements).map fun p => p.declared.name).Sublist
      (lex text).tokens := by
  have hsublist := (places_sublist text).map Prod.snd
  rw [List.map_map] at hsublist
  exact hsublist.trans ((introduced_sublist _).trans (List.tail_sublist _))

/-- A text with a declaration in the head of a loop, a parameter, and a name declared twice. -/
def countingText : String :=
  "function count(to) \x7b\n" ++
  "  for (var i = 0; i < to; i = i + 1) \x7b var j = i; print j; \x7d\n" ++
  "\x7d\n" ++
  "var i;\n"

example : (Index.ofText? countingText).map (fun i => i.declarations.map Declaration.name) =
    some ["count", "to", "i", "j", "i"] := by decide +kernel

end Editor

end Scriptling
