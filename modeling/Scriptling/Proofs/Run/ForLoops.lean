-- The meaning of a `for`. The grammar builds it from blocks and a plain loop, with one block or two
-- around its parts, or none. The rule here runs the clauses as they are written, in one scope for
-- the whole loop. Both come to the same at every place, with every clause present or absent.
import Scriptling.Proofs.Grammar.Acceptance
import Scriptling.Proofs.Run.Lexical

namespace Scriptling

/-! ## Statements that declare nothing -/

mutual
/-- The statement gives no name to the scope that it stands in. -/
def Stmt.keepsScope {ι : Type} : Stmt ι → Bool
  | .var .. | .function .. => false
  | .branch _ yes no => yes.keepsScope && Stmt.keepsScopeOption no
  | .loop _ body => body.keepsScope
  | _ => true

def Stmt.keepsScopeOption {ι : Type} : Option (Stmt ι) → Bool
  | none => true
  | some s => s.keepsScope
end

theorem Grammar.RegularStmt.keepsScope {s : RawStmt} (h : RegularStmt s)
    (hdeclares : s.declares = false) : s.keepsScope = true := by
  induction h with
  | expression | print | block | giveBack => rfl
  | var | function => cases hdeclares
  | @branch _ s o _ _ hyes _ hno ih ih' =>
    unfold Stmt.keepsScope
    rw [ih hyes, Bool.true_and]
    cases o with
    | none => rfl
    | some s' => exact ih' s' rfl (hno s' rfl)
  | loop _ _ hbody ih => exact ih hbody

/-! ## Clauses -/

/-- What can stand first in the head of a `for`. -/
inductive Initializer
  | var (name : Token) (value : Option RawExpr)
  | expression (e : RawExpr)

def Initializer.statement : Initializer → RawStmt
  | .var name value => .var name value
  | .expression e => .expression e

/-- The clauses of a `for`. Its body is a statement, not a declaration. -/
structure ForLoop where
  initializer : Option Initializer
  condition : Option RawExpr
  increment : Option RawExpr
  body : RawStmt
  keepsScope : body.keepsScope = true

namespace ForLoop

/-- The tree of a `for`, without its own kind of node. -/
def tree (f : ForLoop) : RawStmt :=
  Parser.forLoop (f.initializer.map Initializer.statement) f.condition f.increment f.body

/-- The tokens are a `for` with these clauses. -/
inductive Written : List Token → ForLoop → Prop
  | intro {opened : Bool} {word opening semicolon closing : Token} {is cs ns ts : List Token}
      {f : ForLoop} (hword : word.kind = .keyword .forWord) (hopening : opening.kind = .leftParen)
      (initializer : Grammar.Reads .initializer is (f.initializer.map Initializer.statement))
      (condition : Grammar.Perhaps cs f.condition) (hsemicolon : semicolon.kind = .semicolon)
      (increment : Grammar.Perhaps ns f.increment) (hclosing : closing.kind = .rightParen)
      (body : Grammar.Reads (.statement opened) ts f.body) :
      Written (word :: opening :: is ++ cs ++ semicolon :: ns ++ closing :: ts) f

end ForLoop

namespace Grammar

theorem Reads.exists_initializer {is : List Token} {i : Option RawStmt}
    (h : Reads .initializer is i) : ∃ i', i = Option.map Initializer.statement i' := by
  cases h with
  | noInitializer => exact ⟨none, rfl⟩
  | varInitializer h =>
    cases h with
    | plainVar => exact ⟨some (.var _ none), rfl⟩
    | initializedVar => exact ⟨some (.var _ (some _)), rfl⟩
  | exprInitializer h =>
    cases h with
    | expression => exact ⟨some (.expression _), rfl⟩

/-- A statement that starts with `for` is one with clauses, and stands for their tree. -/
theorem Reads.exists_forLoop {opened : Bool} {ts : List Token} {s : RawStmt}
    (h : Reads (.statement opened) ts s) (hfor : Parser.StartsWith (.keyword .forWord) ts) :
    ∃ f : ForLoop, f.Written ts ∧ s = f.tree := by
  -- all other statements start with a token of another kind
  have hother : ∀ {t : Token} {us : List Token} {k : Kind}, t.kind = k → k ≠ .keyword .forWord →
      ¬ Parser.StartsWith (.keyword .forWord) (t :: us) :=
    fun ht hk => Parser.not_startsWith_cons (ht ▸ hk) _
  cases h with
  | forLoop hword hopening initializer condition hsemicolon increment hclosing body =>
    obtain ⟨i, rfl⟩ := initializer.exists_initializer
    exact ⟨⟨i, _, _, _, body.regular.1.keepsScope body.regular.2⟩,
      .intro hword hopening initializer condition hsemicolon increment hclosing body, rfl⟩
  | exprStmt h =>
    cases h with
    | expression value =>
      exact absurd hfor (Parser.derives_not_startsWith value (by decide))
  | ifThen hword | ifElse hword | print hword | giveBack hword | whileLoop hword =>
    exact absurd hfor (hother hword (by decide))
  | block h =>
    cases h with
    | braces hopening => exact absurd hfor (hother hopening (by decide))

end Grammar

/-- What the parser gives for tokens that start with `for` is the tree of the clauses that it
took. -/
theorem Parser.Gives.exists_forLoop {size budget : Nat} {ts rest : List Token} {s : RawStmt}
    (h : Parser.Gives (Parser.statement size budget) ts s rest)
    (hfor : Parser.StartsWith (.keyword .forWord) ts) :
    ∃ (f : ForLoop) (used : List Token), ts = used ++ rest ∧ f.Written used ∧ s = f.tree := by
  obtain ⟨used, opened, rfl, hused, -⟩ :=
    (Parser.finds_statement_and_declaration size budget).1 _ _ _ h
  obtain ⟨word, us, rfl, -⟩ := Parser.reads_head hused
  obtain ⟨_, _, heq, hword⟩ := hfor
  cases heq
  obtain ⟨f, hwritten, rfl⟩ := hused.exists_forLoop ⟨word, us, rfl, hword⟩
  exact ⟨f, word :: us, rfl, hwritten, rfl⟩

/-! ## The rule -/

/-- Passes of a loop, at most `patience` of them. The test comes before each pass and the increase
behind it, but not behind one that returns a value: that ends the loop. -/
def Runs.passes {σ : Type} (test : Runs σ Bool) (pass : Runs σ (Option Value))
    (increase : Runs σ Unit) : Nat → Runs σ (Option Value)
  | 0 => throw .outOfPatience
  | patience + 1 => do
    if ← test then
      match ← pass with
      | some v => return some v
      | none =>
        increase
        passes test pass increase patience
    else return none

namespace ForLoop

open Lexical (ByName Names Site)

/-- The passes of a loop whose clauses see `names`. A condition that is absent holds. -/
def cycle (f : ForLoop) (execute : Site → RawStmt → ByName (Option Value × Site))
    (test increase : Names → RawExpr → ByName Value) (patience : Nat) (names : Names) :
    ByName (Option Value) :=
  Runs.passes
    (match f.condition with
      | some e => do return (← test names e).isTruthy
      | none => return true)
    (do return (← execute (.inside names) f.body).1)
    (match f.increment with
      | some e => do let _ ← increase names e
      | none => return ())
    patience

/-- Run a loop by its clauses, given how to run each of them. The initializer runs once, in a scope
that lasts for the whole loop. -/
def run (f : ForLoop) (start execute : Site → RawStmt → ByName (Option Value × Site))
    (test increase : Names → RawExpr → ByName Value) (patience : Nat) (names : Names) :
    ByName (Option Value) := do
  match f.initializer with
  | some i =>
    let (_, inner) ← start (.inside names) i.statement
    f.cycle execute test increase patience inner.names
  | none => f.cycle execute test increase patience names

/-- The levels left for the condition, where `depth` are left inside the statement. -/
def testLevel (f : ForLoop) (depth : Nat) : Nat :=
  match f.initializer with
  | some _ => depth - 2
  | none => depth

/-- The levels left for the body, where `level` are left for the condition. -/
def bodyLevel (f : ForLoop) (level : Nat) : Nat :=
  match f.increment with
  | some _ => level - 2
  | none => level

theorem testLevel_le (f : ForLoop) (depth : Nat) : f.testLevel depth ≤ depth := by
  unfold testLevel
  split <;> omega

theorem bodyLevel_le (f : ForLoop) (level : Nat) : f.bodyLevel level ≤ level := by
  unfold bodyLevel
  split <;> omega

/-- The loop as a rule. Each clause has the levels that the tree of the loop leaves it. -/
def rule (f : ForLoop) : Lexical.Rule := fun patience depth evaluate execute site => do
  let r ← f.run (execute (depth - 1)) (execute (f.bodyLevel (f.testLevel depth)))
    (evaluate (f.testLevel depth)) (evaluate (f.testLevel depth - 3)) patience site.names
  return (r, site)

end ForLoop

/-! ## The rule for the tree -/

theorem Runs.repeatWhile_eq_passes {σ : Type} (test : Runs σ Bool) (pass : Runs σ (Option Value))
    (increase : Runs σ Unit) (patience : Nat) :
    Runs.repeatWhile test
      (do
        match ← pass with
        | some v => return some v
        | none =>
          increase
          return none) patience = Runs.passes test pass increase patience := by
  induction patience with
  | zero => rfl
  | succ patience ih =>
    unfold Runs.repeatWhile Runs.passes
    rw [ih]
    refine bind_congr fun b => ?_
    cases b with
    | false => rfl
    | true =>
      simp only [if_true, bind_assoc]
      refine bind_congr fun o => ?_
      cases o <;> simp only [bind_assoc, pure_bind]

namespace Lexical

variable {patience : Nat}

@[simp] theorem Site.names_inside (names : Names) : (Site.inside names).names = names := rfl

/-- A statement that declares nothing leaves its place as it is, and does the same outside all
blocks as inside one. -/
theorem statement_keepsScope {s : RawStmt} (h : s.keepsScope = true) (depth : Nat) (site : Site) :
    statement .plain patience depth site s =
      (do return ((← statement .plain patience depth (.inside site.names) s).1, site)) := by
  induction depth generalizing s site with
  | zero =>
    unfold statement
    rfl
  | succ depth ih =>
    cases s with
    | expression | print | block =>
      simp only [statement_plain, byShape, Site.names_inside, bind_assoc, pure_bind]
    | giveBack _ value =>
      cases value <;> simp only [statement_plain, byShape, Site.names_inside, bind_assoc, pure_bind]
    | alien =>
      simp only [statement_plain, byShape]
      rfl
    | var | function => cases h
    | branch condition yes no =>
      obtain ⟨hyes, hno⟩ := Bool.and_eq_true_iff.1 h
      simp only [statement_plain, byShape, Site.names_inside, bind_assoc]
      refine bind_congr fun v => ?_
      split
      · rw [ih hyes site]
        simp only [bind_assoc, pure_bind]
      · cases no with
        | none => simp only [pure_bind]
        | some no =>
          dsimp only
          rw [ih hno site]
          simp only [bind_assoc, pure_bind]
    | loop condition body =>
      simp only [statement_plain, byShape, Site.names_inside, bind_assoc, pure_bind]
      rw [ih (s := body) h site]
      simp only [bind_assoc, pure_bind]

theorem statement_zero (site : Site) (s : RawStmt) :
    statement .plain patience 0 site s = throw .overflow := by
  unfold statement
  rfl

theorem statement_block (depth : Nat) (site : Site) (body : List RawStmt) :
    statement .plain patience (depth + 2) site (.block body) = (do
      let r ← Lexical.sequence (statement .plain patience depth) (.inside site.names) body
      return (r, site)) := by
  simp only [statement_plain, byShape, statements]

theorem statement_block_of_lt {depth : Nat} (h : depth < 2) (site : Site) (body : List RawStmt) :
    statement .plain patience depth site (.block body) = throw .overflow := by
  obtain rfl | rfl : depth = 0 ∨ depth = 1 := by omega
  · exact statement_zero _ _
  · simp only [statement_plain, byShape, statements]
    rfl

/-- An initializer returns nothing. -/
theorem statement_initializer (i : Initializer) (depth : Nat) (site : Site) :
    statement .plain patience depth site i.statement =
      (do return (none, (← statement .plain patience depth site i.statement).2)) := by
  cases depth with
  | zero =>
    rw [statement_zero]
    rfl
  | succ depth =>
    cases i <;> simp only [Initializer.statement, statement_plain, byShape, bind_assoc, pure_bind]

end Lexical

namespace ForLoop

open Lexical

variable {patience : Nat}

/-- The body of the plain loop in the tree. -/
def pass (f : ForLoop) : RawStmt :=
  match f.increment with
  | some e => .block [f.body, .expression e]
  | none => f.body

/-- The plain loop in the tree. -/
def loop (f : ForLoop) : RawStmt := .loop (f.condition.getD (.literal (.bool true))) f.pass

theorem tree_eq (f : ForLoop) : f.tree = match f.initializer with
    | some i => .block [i.statement, f.loop]
    | none => f.loop := by
  unfold tree Parser.forLoop loop pass
  cases f.initializer <;> cases f.increment <;> rfl

/-- Behind the body, the pass runs the increment, unless a value was returned. -/
theorem statement_pass (f : ForLoop) (level : Nat) (site : Site) :
    (do return (← statement .plain patience level site f.pass).1) = (do
      match ← (do
          return (← statement .plain patience (f.bodyLevel level) (.inside site.names) f.body).1 :
          ByName (Option Value)) with
      | some v => return some v
      | none =>
        (match f.increment with
          | some e => do let _ ← expression .plain patience (level - 3) site.names e
          | none => return ())
        return none) := by
  unfold pass bodyLevel
  cases f.increment with
  | none =>
    dsimp only
    rw [statement_keepsScope f.keepsScope level site]
    simp only [bind_assoc, pure_bind]
    refine bind_congr fun r => ?_
    cases r.1 <;> rfl
  | some e =>
    dsimp only
    obtain hlt | ⟨level, rfl⟩ := Parser.lt_or_eq_add 2 level
    · -- with no room for the block there is none for the body
      have hnone : level - 2 = 0 := by omega
      rw [statement_block_of_lt hlt, hnone, statement_zero]
      rfl
    · rw [statement_block, Nat.add_sub_cancel]
      simp only [Lexical.sequence, bind_assoc, pure_bind]
      rw [statement_keepsScope f.keepsScope level]
      simp only [bind_assoc, pure_bind]
      cases level with
      | zero =>
        rw [statement_zero]
        rfl
      | succ level =>
        refine bind_congr fun r => ?_
        cases r.1 with
        | some v => simp only [pure_bind]
        | none =>
          simp only [statement_plain, byShape, bind_assoc, pure_bind]
          rfl

/-- An absent condition stands as a literal in the tree. Where that has no level left, neither has
the body. -/
theorem passes_condition (f : ForLoop) (level : Nat) (names : Names)
    {pass : ByName (Option Value)} (hpass : level = 0 → pass = throw .overflow)
    (increase : ByName Unit) (n : Nat) :
    Runs.passes (do return (← expression .plain patience level names
        (f.condition.getD (.literal (.bool true)))).isTruthy) pass increase n =
      Runs.passes (match f.condition with
        | some e => do return (← expression .plain patience level names e).isTruthy
        | none => return true) pass increase n := by
  cases f.condition with
  | some e => rfl
  | none =>
    cases level with
    | zero =>
      rw [hpass rfl]
      cases n with
      | zero => rfl
      | succ n =>
        simp only [expression, Runs.passes]
        rfl
    | succ level =>
      simp only [Option.getD_none, expression, pure_bind]
      rfl

theorem statement_loop (f : ForLoop) (level : Nat) (site : Site) :
    statement .plain patience (level + 1) site f.loop = (do
      let r ← f.cycle (statement .plain patience (f.bodyLevel level))
        (expression .plain patience level) (expression .plain patience (level - 3)) patience
        site.names
      return (r, site)) := by
  have hpass : level = 0 →
      (do return (← statement .plain patience (f.bodyLevel level) (.inside site.names) f.body).1 :
        ByName (Option Value)) = throw .overflow := by
    rintro rfl
    have hnone : f.bodyLevel 0 = 0 := Nat.le_zero.1 (f.bodyLevel_le 0)
    rw [hnone, statement_zero]
    rfl
  unfold loop cycle
  rw [statement_plain, byShape, statement_pass, Runs.repeatWhile_eq_passes,
    f.passes_condition level _ hpass]

/-- The tree of a `for` does what its clauses do, at every place and with every number of levels. -/
theorem statement_tree (f : ForLoop) (depth : Nat) (site : Site) :
    statement .plain patience (depth + 1) site f.tree = (do
      let r ← f.run (statement .plain patience (depth - 1))
        (statement .plain patience (f.bodyLevel (f.testLevel depth)))
        (expression .plain patience (f.testLevel depth))
        (expression .plain patience (f.testLevel depth - 3)) patience site.names
      return (r, site)) := by
  rw [tree_eq]
  unfold run testLevel
  cases f.initializer with
  | none => exact f.statement_loop depth site
  | some i =>
    dsimp only
    obtain hlt | ⟨k, hk⟩ := Parser.lt_or_eq_add 2 (depth + 1)
    · have hnone : depth - 1 = 0 := by omega
      rw [statement_block_of_lt hlt, hnone, statement_zero]
      rfl
    · obtain rfl : depth = k + 1 := by omega
      rw [statement_block, Nat.add_sub_cancel]
      simp only [Lexical.sequence, bind_assoc]
      rw [statement_initializer]
      simp only [bind_assoc, pure_bind]
      cases k with
      | zero =>
        rw [statement_zero]
        rfl
      | succ k =>
        refine bind_congr fun r => ?_
        rw [statement_loop]
        simp only [bind_assoc, pure_bind]
        refine bind_congr fun v => ?_
        cases v <;> rfl

end ForLoop

end Scriptling
