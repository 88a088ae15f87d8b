-- The shape of what is read. A reading holds only operators that values know and literals that
-- cannot be called, and nothing is declared right under a condition or a loop.
import Scriptling.Proofs.Grammar.Nearest

namespace Scriptling

/-- The statement gives its scope a name. -/
def Stmt.declares {ι : Type} : Stmt ι → Bool
  | .var .. | .function .. => true
  | _ => false

namespace Grammar

/-! ## Regular trees -/

def unaryKinds : List Kind := [.bang, .minus]

def binaryKinds : List Kind :=
  [.bangEqual, .equalEqual, .greater, .greaterEqual, .less, .lessEqual, .minus, .plus, .slash,
    .star]

inductive RegularExpr : RawExpr → Prop
  | literal {v : Value} (h : v.callable? = none) : RegularExpr (.literal v)
  | grouping {e : RawExpr} (h : RegularExpr e) : RegularExpr (.grouping e)
  | unary {operator : Token} {e : RawExpr} (hoperator : operator.kind ∈ unaryKinds)
      (h : RegularExpr e) : RegularExpr (.unary operator e)
  | binary {operator : Token} {e e' : RawExpr} (hoperator : operator.kind ∈ binaryKinds)
      (left : RegularExpr e) (right : RegularExpr e') : RegularExpr (.binary e operator e')
  | logical {operator : Token} {e e' : RawExpr} (left : RegularExpr e) (right : RegularExpr e') :
      RegularExpr (.logical e operator e')
  | variable {name : Token} : RegularExpr (.variable name ())
  | assign {name : Token} {e : RawExpr} (h : RegularExpr e) : RegularExpr (.assign name e ())
  | call {paren : Token} {e : RawExpr} {es : List RawExpr} (callee : RegularExpr e)
      (arguments : ∀ e ∈ es, RegularExpr e) : RegularExpr (.call e paren es)

inductive RegularStmt : RawStmt → Prop
  | expression {e : RawExpr} (h : RegularExpr e) : RegularStmt (.expression e)
  | print {e : RawExpr} (h : RegularExpr e) : RegularStmt (.print e)
  | var {name : Token} {e : Option RawExpr} (h : ∀ e' ∈ e, RegularExpr e') :
      RegularStmt (.var name e)
  | block {ss : List RawStmt} (h : ∀ s ∈ ss, RegularStmt s) : RegularStmt (.block ss)
  | branch {e : RawExpr} {s : RawStmt} {o : Option RawStmt} (condition : RegularExpr e)
      (yes : RegularStmt s) (hyes : s.declares = false) (no : ∀ s' ∈ o, RegularStmt s')
      (hno : ∀ s' ∈ o, s'.declares = false) : RegularStmt (.branch e s o)
  | loop {e : RawExpr} {s : RawStmt} (condition : RegularExpr e) (body : RegularStmt s)
      (hbody : s.declares = false) : RegularStmt (.loop e s)
  | function {name : Token} {names : List Token} {ss : List RawStmt}
      (h : ∀ s ∈ ss, RegularStmt s) : RegularStmt (.function name names ss)
  | giveBack {keyword : Token} {e : Option RawExpr} (h : ∀ e' ∈ e, RegularExpr e') :
      RegularStmt (.giveBack keyword e)

/-! ## Trees of a shape -/

/-- Properties of tokens, expressions, statements and declarations that hold of a tree where they
hold of its parts. -/
structure Shape (S : Token → Prop) (E : RawExpr → Prop) (T D : RawStmt → Prop) : Prop where
  literal : ∀ {v}, v.callable? = none → E (.literal v)
  grouping : ∀ {e}, E e → E (.grouping e)
  unary : ∀ {operator e}, S operator → operator.kind ∈ unaryKinds → E e → E (.unary operator e)
  binary : ∀ {operator e e'}, S operator → operator.kind ∈ binaryKinds → E e → E e' →
    E (.binary e operator e')
  logical : ∀ {operator e e'}, S operator → E e → E e' → E (.logical e operator e')
  use : ∀ {name}, S name → E (.variable name ())
  /-- The target of an assignment is read as a use first. -/
  assign : ∀ {name e}, E (.variable name ()) → E e → E (.assign name e ())
  call : ∀ {paren e es}, S paren → E e → (∀ e' ∈ es, E e') → E (.call e paren es)
  expression : ∀ {e}, E e → T (.expression e)
  print : ∀ {e}, E e → T (.print e)
  block : ∀ {ss}, (∀ s ∈ ss, D s) → T (.block ss)
  branch : ∀ {e s o}, E e → T s → (∀ s' ∈ o, T s') → T (.branch e s o)
  loop : ∀ {e s}, E e → T s → T (.loop e s)
  giveBack : ∀ {keyword o}, S keyword → (∀ e ∈ o, E e) → T (.giveBack keyword o)
  var : ∀ {name o}, S name → (∀ e ∈ o, E e) → D (.var name o)
  function : ∀ {name names ss}, S name → (∀ t ∈ names, S t) → (∀ s ∈ ss, D s) →
    D (.function name names ss)
  statement : ∀ {s}, T s → D s

/-- The loop that a `for` stands for has the shape of its parts. -/
theorem Shape.forLoop {S : Token → Prop} {E : RawExpr → Prop} {T D : RawStmt → Prop}
    (shape : Shape S E T D) {i : Option RawStmt} {c n : Option RawExpr} {s : RawStmt}
    (hi : ∀ s ∈ i, D s) (hc : ∀ e ∈ c, E e) (hn : ∀ e ∈ n, E e) (hs : T s) :
    T (Parser.forLoop i c n s) := by
  have htest : E (c.getD (.literal (.bool true))) := by
    cases c with
    | none => exact shape.literal rfl
    | some e => exact hc e rfl
  have hpair : ∀ {s s' : RawStmt}, D s → T s' → T (.block [s, s']) := fun hs hs' =>
    shape.block (List.forall_mem_cons.2 ⟨hs, List.forall_mem_singleton.2 (shape.statement hs')⟩)
  have hpass : ∀ e ∈ n, T (.block [s, .expression e]) := fun e he =>
    hpair (shape.statement hs) (shape.expression (hn e he))
  unfold Parser.forLoop
  cases i with
  | none =>
    cases n with
    | none => exact shape.loop htest hs
    | some e => exact shape.loop htest (hpass e rfl)
  | some first =>
    cases n with
    | none => exact hpair (hi first rfl) (shape.loop htest hs)
    | some e => exact hpair (hi first rfl) (shape.loop htest (hpass e rfl))

theorem regularShape : Shape (fun _ => True) RegularExpr
    (fun s => RegularStmt s ∧ s.declares = false) RegularStmt where
  literal := .literal
  grouping := .grouping
  unary _ := .unary
  binary _ := .binary
  logical _ := .logical
  use _ := .variable
  assign _ := .assign
  call _ := .call
  expression h := ⟨.expression h, rfl⟩
  print h := ⟨.print h, rfl⟩
  block h := ⟨.block h, rfl⟩
  branch h hyes hno :=
    ⟨.branch h hyes.1 hyes.2 (fun s hs => (hno s hs).1) fun s hs => (hno s hs).2, rfl⟩
  loop h hbody := ⟨.loop h hbody.1 hbody.2, rfl⟩
  giveBack _ h := ⟨.giveBack h, rfl⟩
  var _ := .var
  function _ _ := .function
  statement h := h.1

/-! ## Readings are regular -/

def RegularPhrase : (s : Symbol) → s.Tree → Prop
  | .arguments, es => ∀ e ∈ es, RegularExpr e
  | .expression, e | .ladder _, e | .unary, e | .call, e | .primary, e => RegularExpr e

theorem callable?_value (t : Token) : t.value.callable? = none := by
  unfold Token.value
  split <;> rfl

theorem regular_node {l : Level} {operator : Token} {e e' : RawExpr}
    (hoperator : operator.kind ∈ l.operators) (left : RegularExpr e) (right : RegularExpr e') :
    RegularExpr (l.node e operator e') := by
  cases l with
  | logicOr | logicAnd => exact .logical left right
  | equality | comparison | term | factor =>
    refine .binary ?_ left right
    revert hoperator
    generalize operator.kind = k
    revert k
    decide

theorem Derives.regular {s : Symbol} {ts : List Token} {t : s.Tree} (h : Derives s ts t) :
    RegularPhrase s t := by
  induction h with
  | assign _ _ _ ih => exact .assign ih
  | logicOr _ ih | operand _ ih | tightest _ ih | unsigned _ ih | uncalled _ ih => exact ih
  | operation _ hoperator _ ih ih' => exact regular_node hoperator ih ih'
  | sign hoperator _ ih =>
    refine .unary ?_ ih
    obtain h | h := hoperator <;> rw [h] <;> decide
  | callEmpty _ _ _ ih => exact .call ih (by simp)
  | callWith _ _ _ _ _ ih ih' => exact .call ih ih'
  | lastArgument _ ih =>
    intro e he
    rw [List.mem_singleton.1 he]
    exact ih
  | argument _ _ _ ih ih' =>
    intro e he
    obtain rfl | he := List.mem_cons.1 he
    · exact ih
    · exact ih' e he
  | falseWord | trueWord | nilWord => exact .literal rfl
  | literal => exact .literal (callable?_value _)
  | name => exact .variable
  | grouping _ _ _ ih => exact .grouping ih

theorem Perhaps.regular {ts : List Token} {e : Option RawExpr} (h : Perhaps ts e) :
    ∀ e' ∈ e, RegularExpr e' := by
  cases h with
  | absent => exact fun e he => absurd he (by simp)
  | present h =>
    intro e he
    cases he
    exact h.regular

def RegularClause : (p : Clause) → p.Tree → Prop
  | .declarations, ss | .block, ss => ∀ s ∈ ss, RegularStmt s
  | .declaration, s | .varDecl, s => RegularStmt s
  | .statement _, s | .exprStmt, s => RegularStmt s ∧ s.declares = false
  | .initializer, i => ∀ s ∈ i, RegularStmt s

theorem Reads.regular {p : Clause} {ts : List Token} {t : p.Tree} (h : Reads p ts t) :
    RegularClause p t := by
  induction h with
  | noDeclaration => exact fun s hs => absurd hs (by simp)
  | declarations _ _ ih ih' =>
    intro s hs
    obtain rfl | hs := List.mem_cons.1 hs
    · exact ih
    · exact ih' s hs
  | function _ _ _ _ _ _ ih => exact .function ih
  | varDecl _ ih => exact ih
  | statement _ ih => exact ih.1
  | plainVar => exact .var (by simp)
  | initializedVar _ _ _ value =>
    refine .var fun e he => ?_
    cases he
    exact value.regular
  | exprStmt _ ih => exact ih
  | expression value => exact ⟨.expression value.regular, rfl⟩
  | noInitializer => exact fun s hs => absurd hs (by simp)
  | varInitializer _ ih =>
    intro s hs
    cases hs
    exact ih
  | exprInitializer _ ih =>
    intro s hs
    cases hs
    exact ih.1
  | forLoop _ _ _ condition _ increment _ _ ih ih' =>
    exact regularShape.forLoop ih condition.regular increment.regular ih'
  | ifThen _ _ condition _ _ ih =>
    exact ⟨.branch condition.regular ih.1 ih.2 (by simp) (by simp), rfl⟩
  | ifElse _ _ condition _ _ _ _ ih ih' =>
    refine ⟨.branch condition.regular ih.1 ih.2 ?_ ?_, rfl⟩
    · intro s hs
      cases hs
      exact ih'.1
    · intro s hs
      cases hs
      exact ih'.2
  | print _ value => exact ⟨.print value.regular, rfl⟩
  | giveBack _ value => exact ⟨.giveBack value.regular, rfl⟩
  | whileLoop _ _ condition _ _ ih => exact ⟨.loop condition.regular ih.1 ih.2, rfl⟩
  | block _ ih => exact ⟨.block ih, rfl⟩
  | braces _ _ _ ih => exact ih

end Grammar

end Scriptling
