-- Labels. Labelling a tree changes nothing but the labels, and numbers the uses of variables one
-- after the other: no two uses share a label.
import Scriptling.Tree.Label

namespace Scriptling

variable {ι : Type}

/-! ## Trees without their labels -/

mutual
def Expr.erase : Expr ι → RawExpr
  | .literal value => .literal value
  | .grouping inner => .grouping inner.erase
  | .unary operator right => .unary operator right.erase
  | .binary left operator right => .binary left.erase operator right.erase
  | .logical left operator right => .logical left.erase operator right.erase
  | .variable name _ => .variable name ()
  | .assign name value _ => .assign name value.erase ()
  | .call callee paren arguments => .call callee.erase paren (Expr.eraseAll arguments)
  | .alien text => .alien text

def Expr.eraseAll : List (Expr ι) → List RawExpr
  | [] => []
  | e :: rest => e.erase :: Expr.eraseAll rest
end

mutual
def Stmt.erase : Stmt ι → RawStmt
  | .expression e => .expression e.erase
  | .print e => .print e.erase
  | .var name initializer => .var name (initializer.map Expr.erase)
  | .block body => .block (Stmt.eraseAll body)
  | .branch condition yes no => .branch condition.erase yes.erase (Stmt.eraseOption no)
  | .loop condition body => .loop condition.erase body.erase
  | .function name parameters body => .function name parameters (Stmt.eraseAll body)
  | .giveBack keyword value => .giveBack keyword (value.map Expr.erase)
  | .alien text => .alien text

def Stmt.eraseOption : Option (Stmt ι) → Option RawStmt
  | none => none
  | some s => some s.erase

def Stmt.eraseAll : List (Stmt ι) → List RawStmt
  | [] => []
  | s :: rest => s.erase :: Stmt.eraseAll rest
end

theorem Expr.eraseAll_eq_map (es : List (Expr ι)) : Expr.eraseAll es = es.map Expr.erase := by
  induction es with
  | nil => rfl
  | cons e es ih => rw [Expr.eraseAll, ih, List.map_cons]

theorem Stmt.eraseAll_eq_map (ss : List (Stmt ι)) : Stmt.eraseAll ss = ss.map Stmt.erase := by
  induction ss with
  | nil => rfl
  | cons s ss ih => rw [Stmt.eraseAll, ih, List.map_cons]

mutual
theorem Expr.tokens_erase : ∀ e : Expr ι, e.erase.tokens = e.tokens
  | .literal _ | .variable .. | .alien _ => rfl
  | .grouping inner => inner.tokens_erase
  | .unary operator right => congrArg (operator :: ·) right.tokens_erase
  | .binary left operator right | .logical left operator right => by
    rw [Expr.erase, Expr.tokens, Expr.tokens, left.tokens_erase, right.tokens_erase]
  | .assign name value _ => congrArg (name :: ·) value.tokens_erase
  | .call callee paren arguments => by
    rw [Expr.erase, Expr.tokens, Expr.tokens, callee.tokens_erase,
      Expr.tokensOfAll_erase arguments]

theorem Expr.tokensOfAll_erase : ∀ es : List (Expr ι),
    Expr.tokensOfAll (Expr.eraseAll es) = Expr.tokensOfAll es
  | [] => rfl
  | e :: rest => by
    rw [Expr.eraseAll, Expr.tokensOfAll, Expr.tokensOfAll, e.tokens_erase,
      Expr.tokensOfAll_erase rest]
end

theorem Expr.tokensOfOption_erase (e : Option (Expr ι)) :
    Expr.tokensOfOption (e.map Expr.erase) = Expr.tokensOfOption e := by
  cases e with
  | none => rfl
  | some e => exact e.tokens_erase

mutual
theorem Stmt.tokens_erase : ∀ s : Stmt ι, s.erase.tokens = s.tokens
  | .expression e | .print e => e.tokens_erase
  | .var name initializer => congrArg (name :: ·) (Expr.tokensOfOption_erase initializer)
  | .block body => Stmt.tokensOfAll_erase body
  | .branch condition yes no => by
    rw [Stmt.erase, Stmt.tokens, Stmt.tokens, condition.tokens_erase, yes.tokens_erase,
      Stmt.tokensOfOption_erase no]
  | .loop condition body => by
    rw [Stmt.erase, Stmt.tokens, Stmt.tokens, condition.tokens_erase, body.tokens_erase]
  | .function name parameters body => by
    rw [Stmt.erase, Stmt.tokens, Stmt.tokens, Stmt.tokensOfAll_erase body]
  | .giveBack keyword value => congrArg (keyword :: ·) (Expr.tokensOfOption_erase value)
  | .alien _ => rfl

theorem Stmt.tokensOfOption_erase : ∀ s : Option (Stmt ι),
    Stmt.tokensOfOption (Stmt.eraseOption s) = Stmt.tokensOfOption s
  | none => rfl
  | some s => s.tokens_erase

theorem Stmt.tokensOfAll_erase : ∀ ss : List (Stmt ι),
    Stmt.tokensOfAll (Stmt.eraseAll ss) = Stmt.tokensOfAll ss
  | [] => rfl
  | s :: rest => by
    rw [Stmt.eraseAll, Stmt.tokensOfAll, Stmt.tokensOfAll, s.tokens_erase,
      Stmt.tokensOfAll_erase rest]
end

theorem Stmt.firstLine_erase (s : Stmt ι) : s.erase.firstLine = s.firstLine := by
  rw [Stmt.firstLine, Stmt.firstLine, s.tokens_erase]

/-! ## Fresh labels -/

/-- The labels count up from `n`, and `next` comes after them. -/
def Numbers (n next : Nat) (labels : List Nat) : Prop :=
  n ≤ next ∧ labels = List.range' n (next - n)

theorem numbers_nil (n : Nat) : Numbers n n [] := by
  refine ⟨Nat.le_refl n, ?_⟩
  rw [Nat.sub_self]
  rfl

theorem numbers_one (n : Nat) : Numbers n (n + 1) [n] := by
  refine ⟨Nat.le_succ n, ?_⟩
  rw [Nat.add_sub_cancel_left]
  rfl

theorem Numbers.append {n m next : Nat} {labels labels' : List Nat} (h : Numbers n m labels)
    (h' : Numbers m next labels') : Numbers n next (labels ++ labels') := by
  obtain ⟨hle, rfl⟩ := h
  obtain ⟨hle', rfl⟩ := h'
  refine ⟨by omega, ?_⟩
  have hstart : m = n + 1 * (m - n) := by omega
  have hlength : next - n = (m - n) + (next - m) := by omega
  rw [hlength, ← List.range'_append, ← hstart]

theorem Numbers.nodup {n next : Nat} {labels : List Nat} (h : Numbers n next labels) :
    labels.Nodup := by
  rw [h.2]
  exact List.nodup_range'

theorem Numbers.mem {n next label : Nat} {labels : List Nat} (h : Numbers n next labels)
    (hmem : label ∈ labels) : n ≤ label ∧ label < next := by
  rw [h.2, List.mem_range'_1] at hmem
  have := h.1
  omega

/-! ## What labelling gives -/

/-- Labelling a tree gives one that differs in its labels only, and numbers its uses. -/
def Labels {α β : Type} (m : StateM Nat α) (erase : α → β) (uses : α → List (Use UseId))
    (raw : β) : Prop :=
  ∀ n, ∃ a next, m.run n = (a, next) ∧ erase a = raw ∧ Numbers n next ((uses a).map Use.label)

theorem run_bind_of {α β : Type} {m : StateM Nat α} {f : α → StateM Nat β} {n n' : Nat} {a : α}
    {r : β × Nat} (h : m.run n = (a, n')) (hf : (f a).run n' = r) : (m >>= f).run n = r := by
  have hbind : (m >>= f).run n = (f (m.run n).1).run (m.run n).2 := rfl
  rw [hbind, h, hf]

mutual
theorem Expr.label_labels : ∀ e : RawExpr, Labels e.label Expr.erase Expr.uses e
  | .literal value, n => ⟨.literal value, n, rfl, rfl, numbers_nil n⟩
  | .alien text, n => ⟨.alien text, n, rfl, rfl, numbers_nil n⟩
  | .variable name _, n => ⟨.variable name n, n + 1, rfl, rfl, numbers_one n⟩
  | .grouping inner, n => by
    obtain ⟨a, m, hrun, herase, hlabels⟩ := inner.label_labels n
    refine ⟨.grouping a, m, ?_, by rw [Expr.erase, herase], hlabels⟩
    rw [Expr.label]
    exact run_bind_of hrun rfl
  | .unary operator right, n => by
    obtain ⟨a, m, hrun, herase, hlabels⟩ := right.label_labels n
    refine ⟨.unary operator a, m, ?_, by rw [Expr.erase, herase], hlabels⟩
    rw [Expr.label]
    exact run_bind_of hrun rfl
  | .binary left operator right, n => by
    obtain ⟨a, m, hrun, herase, hlabels⟩ := left.label_labels n
    obtain ⟨b, k, hrun', herase', hlabels'⟩ := right.label_labels m
    refine ⟨.binary a operator b, k, ?_, by rw [Expr.erase, herase, herase'], ?_⟩
    · rw [Expr.label]
      exact run_bind_of hrun (run_bind_of hrun' rfl)
    · rw [Expr.uses, List.map_append]
      exact hlabels.append hlabels'
  | .logical left operator right, n => by
    obtain ⟨a, m, hrun, herase, hlabels⟩ := left.label_labels n
    obtain ⟨b, k, hrun', herase', hlabels'⟩ := right.label_labels m
    refine ⟨.logical a operator b, k, ?_, by rw [Expr.erase, herase, herase'], ?_⟩
    · rw [Expr.label]
      exact run_bind_of hrun (run_bind_of hrun' rfl)
    · rw [Expr.uses, List.map_append]
      exact hlabels.append hlabels'
  | .assign name value _, n => by
    obtain ⟨a, m, hrun, herase, hlabels⟩ := value.label_labels (n + 1)
    refine ⟨.assign name a n, m, ?_, by rw [Expr.erase, herase], ?_⟩
    · rw [Expr.label]
      exact run_bind_of rfl (run_bind_of hrun rfl)
    · exact (numbers_one n).append hlabels
  | .call callee paren arguments, n => by
    obtain ⟨a, m, hrun, herase, hlabels⟩ := callee.label_labels n
    obtain ⟨bs, k, hrun', herase', hlabels'⟩ := Expr.labelAll_labels arguments m
    refine ⟨.call a paren bs, k, ?_, by rw [Expr.erase, herase, herase'], ?_⟩
    · rw [Expr.label]
      exact run_bind_of hrun (run_bind_of hrun' rfl)
    · rw [Expr.uses, List.map_append]
      exact hlabels.append hlabels'

theorem Expr.labelAll_labels : ∀ es : List RawExpr,
    Labels (Expr.labelAll es) Expr.eraseAll Expr.usesInAll es
  | [], n => ⟨[], n, rfl, rfl, numbers_nil n⟩
  | e :: rest, n => by
    obtain ⟨a, m, hrun, herase, hlabels⟩ := e.label_labels n
    obtain ⟨bs, k, hrun', herase', hlabels'⟩ := Expr.labelAll_labels rest m
    refine ⟨a :: bs, k, ?_, by rw [Expr.eraseAll, herase, herase'], ?_⟩
    · rw [Expr.labelAll]
      exact run_bind_of hrun (run_bind_of hrun' rfl)
    · rw [Expr.usesInAll, List.map_append]
      exact hlabels.append hlabels'
end

theorem Expr.labelOption_labels (e : Option RawExpr) :
    Labels (Expr.labelOption e) (Option.map Expr.erase) Expr.usesInOption e := by
  intro n
  cases e with
  | none => exact ⟨none, n, rfl, rfl, numbers_nil n⟩
  | some e =>
    obtain ⟨a, m, hrun, herase, hlabels⟩ := e.label_labels n
    refine ⟨some a, m, ?_, by rw [Option.map_some, herase], hlabels⟩
    rw [Expr.labelOption]
    exact run_bind_of hrun rfl

mutual
theorem Stmt.label_labels : ∀ s : RawStmt, Labels s.label Stmt.erase Stmt.uses s
  | .alien text, n => ⟨.alien text, n, rfl, rfl, numbers_nil n⟩
  | .expression e, n => by
    obtain ⟨a, m, hrun, herase, hlabels⟩ := e.label_labels n
    refine ⟨.expression a, m, ?_, by rw [Stmt.erase, herase], hlabels⟩
    rw [Stmt.label]
    exact run_bind_of hrun rfl
  | .print e, n => by
    obtain ⟨a, m, hrun, herase, hlabels⟩ := e.label_labels n
    refine ⟨.print a, m, ?_, by rw [Stmt.erase, herase], hlabels⟩
    rw [Stmt.label]
    exact run_bind_of hrun rfl
  | .var name initializer, n => by
    obtain ⟨a, m, hrun, herase, hlabels⟩ := Expr.labelOption_labels initializer n
    refine ⟨.var name a, m, ?_, by rw [Stmt.erase, herase], hlabels⟩
    rw [Stmt.label]
    exact run_bind_of hrun rfl
  | .block body, n => by
    obtain ⟨as, m, hrun, herase, hlabels⟩ := Stmt.labelAll_labels body n
    refine ⟨.block as, m, ?_, by rw [Stmt.erase, herase], hlabels⟩
    rw [Stmt.label]
    exact run_bind_of hrun rfl
  | .branch condition yes no, n => by
    obtain ⟨a, m, hrun, herase, hlabels⟩ := condition.label_labels n
    obtain ⟨b, k, hrun', herase', hlabels'⟩ := yes.label_labels m
    obtain ⟨c, l, hrun'', herase'', hlabels''⟩ := Stmt.labelOption_labels no k
    refine ⟨.branch a b c, l, ?_, by rw [Stmt.erase, herase, herase', herase''], ?_⟩
    · rw [Stmt.label]
      exact run_bind_of hrun (run_bind_of hrun' (run_bind_of hrun'' rfl))
    · rw [Stmt.uses, List.map_append, List.map_append]
      exact (hlabels.append hlabels').append hlabels''
  | .loop condition body, n => by
    obtain ⟨a, m, hrun, herase, hlabels⟩ := condition.label_labels n
    obtain ⟨b, k, hrun', herase', hlabels'⟩ := body.label_labels m
    refine ⟨.loop a b, k, ?_, by rw [Stmt.erase, herase, herase'], ?_⟩
    · rw [Stmt.label]
      exact run_bind_of hrun (run_bind_of hrun' rfl)
    · rw [Stmt.uses, List.map_append]
      exact hlabels.append hlabels'
  | .function name parameters body, n => by
    obtain ⟨as, m, hrun, herase, hlabels⟩ := Stmt.labelAll_labels body n
    refine ⟨.function name parameters as, m, ?_, by rw [Stmt.erase, herase], hlabels⟩
    rw [Stmt.label]
    exact run_bind_of hrun rfl
  | .giveBack keyword value, n => by
    obtain ⟨a, m, hrun, herase, hlabels⟩ := Expr.labelOption_labels value n
    refine ⟨.giveBack keyword a, m, ?_, by rw [Stmt.erase, herase], hlabels⟩
    rw [Stmt.label]
    exact run_bind_of hrun rfl

theorem Stmt.labelOption_labels : ∀ s : Option RawStmt,
    Labels (Stmt.labelOption s) Stmt.eraseOption Stmt.usesInOption s
  | none, n => ⟨none, n, rfl, rfl, numbers_nil n⟩
  | some s, n => by
    obtain ⟨a, m, hrun, herase, hlabels⟩ := s.label_labels n
    refine ⟨some a, m, ?_, by rw [Stmt.eraseOption, herase], hlabels⟩
    rw [Stmt.labelOption]
    exact run_bind_of hrun rfl

theorem Stmt.labelAll_labels : ∀ ss : List RawStmt,
    Labels (Stmt.labelAll ss) Stmt.eraseAll Stmt.usesInAll ss
  | [], n => ⟨[], n, rfl, rfl, numbers_nil n⟩
  | s :: rest, n => by
    obtain ⟨a, m, hrun, herase, hlabels⟩ := s.label_labels n
    obtain ⟨bs, k, hrun', herase', hlabels'⟩ := Stmt.labelAll_labels rest m
    refine ⟨a :: bs, k, ?_, by rw [Stmt.eraseAll, herase, herase'], ?_⟩
    · rw [Stmt.labelAll]
      exact run_bind_of hrun (run_bind_of hrun' rfl)
    · rw [Stmt.usesInAll, List.map_append]
      exact hlabels.append hlabels'
end

theorem Stmt.erase_labelAll (ss : List RawStmt) (n : Nat) :
    ((Stmt.labelAll ss).run n).1.map Stmt.erase = ss := by
  obtain ⟨labelled, m, hrun, herase, -⟩ := Stmt.labelAll_labels ss n
  rw [hrun, ← Stmt.eraseAll_eq_map]
  exact herase

end Scriptling
