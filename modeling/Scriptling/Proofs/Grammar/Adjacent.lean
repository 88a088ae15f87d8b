-- Numbers and names in a program. A value is followed by an operator, a bracket, a comma or a
-- semicolon, so a name never comes directly behind a number: no name is glued to its digits.
import Mathlib.Data.List.Chain
import Scriptling.Proofs.Grammar.Acceptance

namespace Scriptling

namespace Grammar

/-! ## Rows of tokens without a name behind a number -/

/-- The second token is not a name behind a number. -/
def Unglued (t u : Token) : Prop := t.kind = .number → u.kind ≠ .identifier

/-- No name stands directly behind a number. -/
def Spaced (ts : List Token) : Prop := ts.IsChain Unglued

/-- A name may follow too: the last token is no number. -/
structure Finished (ts : List Token) : Prop where
  spaced : Spaced ts
  last : ∀ t ∈ ts.getLast?, t.kind ≠ .number

/-- A token of this kind is neither of the two, so it may stand anywhere between them. -/
def Divides (k : Kind) : Prop := k ≠ .identifier ∧ k ≠ .number

instance (k : Kind) : Decidable (Divides k) := inferInstanceAs (Decidable (_ ∧ _))

theorem divides_operator (l : Level) : ∀ k ∈ l.operators, Divides k := by
  cases l <;> decide

section Rows

variable {t : Token} {ts us : List Token} {k : Kind}

theorem spaced_one (t : Token) : Spaced [t] := .singleton t

theorem Spaced.cons (h : Spaced ts) (ht : t.kind = k) (hk : k ≠ .number) : Spaced (t :: ts) :=
  List.isChain_cons.2 ⟨fun _ _ hnumber => absurd (ht.symm.trans hnumber) hk, h⟩

/-- Two rows with a token between them. -/
theorem Spaced.divided (h : Spaced ts) (ht : t.kind = k) (hk : Divides k) (h' : Spaced us) :
    Spaced (ts ++ t :: us) := by
  refine List.isChain_append.2 ⟨h, h'.cons ht hk.2, ?_⟩
  intro u _ v hv _
  rw [← Option.mem_some.1 hv, ht]
  exact hk.1

theorem Spaced.closed (h : Spaced ts) (ht : t.kind = k) (hk : Divides k) :
    Finished (ts ++ [t]) where
  spaced := h.divided ht hk .nil
  last u hu := by
    rw [List.getLast?_concat] at hu
    rw [← Option.mem_some.1 hu, ht]
    exact hk.2

theorem finished_nil : Finished [] := ⟨.nil, by simp⟩

theorem Finished.cons (h : Finished ts) (ht : t.kind = k) (hk : k ≠ .number) :
    Finished (t :: ts) where
  spaced := h.spaced.cons ht hk
  last u hu := by
    cases ts with
    | nil =>
      obtain rfl : t = u := Option.mem_some.1 hu
      exact ht ▸ hk
    | cons v vs => exact h.last u (by rwa [List.getLast?_cons_cons] at hu)

theorem Finished.append (h : Finished ts) (h' : Finished us) : Finished (ts ++ us) where
  spaced := by
    refine List.isChain_append.2 ⟨h.spaced, h'.spaced, ?_⟩
    intro u hu v _ hnumber
    exact absurd hnumber (h.last u hu)
  last u hu := by
    rw [List.getLast?_append, Option.mem_def, Option.or_eq_some_iff] at hu
    obtain hu | ⟨-, hu⟩ := hu
    · exact h'.last u hu
    · exact h.last u hu

/-- What ends in a value, a token that divides, and what is finished. -/
theorem Spaced.finished (h : Spaced ts) (ht : t.kind = k) (hk : Divides k) (h' : Finished us) :
    Finished (ts ++ t :: us) := by
  rw [List.append_cons]
  exact (h.closed ht hk).append h'

end Rows

/-! ## The rules of the grammar -/

theorem Derives.spaced {s : Symbol} {ts : List Token} {t : s.Tree} (h : Derives s ts t) :
    Spaced ts := by
  induction h with
  | assign hname hequals _ ih => exact (ih.cons hequals (by decide)).cons hname (by decide)
  | operation _ hoperator _ ih ih' => exact ih.divided rfl (divides_operator _ _ hoperator) ih'
  | sign hoperator _ ih =>
    obtain hbang | hminus := hoperator
    · exact ih.cons hbang (by decide)
    · exact ih.cons hminus (by decide)
  | callEmpty _ hopening _ ih => exact ih.divided hopening (by decide) (spaced_one _)
  | callWith _ hopening _ _ hclosing ih ih' =>
    exact (ih.divided hopening (by decide) ih').divided hclosing (by decide) .nil
  | argument _ hcomma _ ih ih' => exact ih.divided hcomma (by decide) ih'
  | grouping hopening _ hclosing ih =>
    exact (ih.cons hopening (by decide)).divided hclosing (by decide) .nil
  | logicOr _ ih | operand _ ih | tightest _ ih | unsigned _ ih | uncalled _ ih
  | lastArgument _ ih => exact ih
  | falseWord | trueWord | nilWord | literal | name => exact spaced_one _

theorem IsExpression.spaced {ts : List Token} (h : IsExpression ts) : Spaced ts := by
  obtain ⟨e, he⟩ := h
  exact he.spaced

theorem IsOptionalExpression.spaced {ts : List Token} (h : IsOptionalExpression ts) :
    Spaced ts := by
  obtain rfl | h := h
  · exact .nil
  · exact h.spaced

theorem Separated.spaced {ts names : List Token} (h : Separated IsName ts names) : Spaced ts := by
  induction h with
  | last h =>
    rw [h.1]
    exact spaced_one _
  | more h hcomma _ ih =>
    rw [h.1]
    exact (spaced_one _).divided hcomma (by decide) ih

theorem Parameters.spaced {ts names : List Token} (h : Parameters ts names) : Spaced ts := by
  cases h with
  | none => exact .nil
  | some h => exact h.spaced

/-- All that the grammar allows is finished: a statement ends in a semicolon or in a brace. -/
theorem Allows.finished {p : Part} {ts : List Token} (h : Allows p ts) : Finished ts := by
  induction h with
  | noDeclaration => exact finished_nil
  | declarations _ _ ih ih' => exact ih.append ih'
  | function hword hname hopening parameters hclosing _ ih =>
    have hbody := parameters.spaced.finished hclosing (by decide) ih
    exact ((hbody.cons hopening (by decide)).cons hname (by decide)).cons hword (by decide)
  | @plainVar word name semicolon hword hname hsemicolon =>
    exact ((spaced_one name).closed hsemicolon (by decide)).cons hword (by decide)
  | initializedVar hword hname hequals value hsemicolon =>
    have hvalue := value.spaced.closed hsemicolon (by decide)
    exact ((hvalue.cons hequals (by decide)).cons hname (by decide)).cons hword (by decide)
  | expression value hsemicolon => exact value.spaced.closed hsemicolon (by decide)
  | noInitializer h => exact Spaced.closed .nil h (by decide)
  | forLoop hword hopening _ condition hsemicolon increment hclosing _ ih ih' =>
    have hbody := increment.spaced.finished hclosing (by decide) ih'
    have hclauses := ih.append (condition.spaced.finished hsemicolon (by decide) hbody)
    simpa using (hclauses.cons hopening (by decide)).cons hword (by decide)
  | ifThen hword hopening condition hclosing _ ih =>
    have hyes := condition.spaced.finished hclosing (by decide) ih
    exact (hyes.cons hopening (by decide)).cons hword (by decide)
  | ifElse hword hopening condition hclosing _ hother _ ih ih' =>
    have hyes := condition.spaced.finished hclosing (by decide) ih
    have hno := hyes.append (ih'.cons hother (by decide))
    simpa using (hno.cons hopening (by decide)).cons hword (by decide)
  | print hword value hsemicolon | giveBack hword value hsemicolon =>
    exact (value.spaced.closed hsemicolon (by decide)).cons hword (by decide)
  | whileLoop hword hopening condition hclosing _ ih =>
    have hbody := condition.spaced.finished hclosing (by decide) ih
    exact (hbody.cons hopening (by decide)).cons hword (by decide)
  | braces hopening _ hclosing ih =>
    exact (ih.spaced.closed hclosing (by decide)).cons hopening (by decide)
  | varDecl _ ih | statement _ ih | exprStmt _ ih | varInitializer _ ih | exprInitializer _ ih
  | block _ ih => exact ih

end Grammar

/-- What is read without a complaint has no name directly behind a number. -/
theorem Parser.spaced_of_quiet {limit : Nat} {ts : List Token}
    (h : (parse limit ts).complaints = []) : Grammar.Spaced ts := by
  obtain ⟨rest, hgives⟩ := complaints_eq_nil_iff.1 h
  exact (gives_declarations hgives).allows.finished.spaced

end Scriptling
