-- Programs with their `for` loops run as they are written. Where a statement is known to have been
-- written as a `for`, its clauses are its rule, here and in all functions of the program. However
-- one tells which statements those are, a session does what it does this way.
import Scriptling.Proofs.Run.ForLoops
import Scriptling.Proofs.Run.Sessions

namespace Scriptling.Lexical

/-! ## Sound rules -/

/-- A rule is sound for a statement if it gives what the shape of the statement gives, at every
place and with every number of levels. -/
def Rule.SoundFor (rule : Rule) (s : RawStmt) : Prop := ∀ patience depth site,
  rule patience depth (expressionBelow .plain patience (depth + 1))
    (statementBelow .plain patience (depth + 1)) site = statement .plain patience (depth + 1) site s

def Rules.Sound (rules : Rules) : Prop := ∀ s rule, rules s = some rule → rule.SoundFor s

/-- With so many levels, programs do the same by these rules as by shape alone. -/
structure Same (rules : Rules) (patience depth : Nat) : Prop where
  expression : expression rules patience depth = expression .plain patience depth
  values : values rules patience depth = values .plain patience depth
  statement : statement rules patience depth = statement .plain patience depth
  statements : statements rules patience depth = statements .plain patience depth
  apply : apply rules patience depth = apply .plain patience depth
  invoke : invoke rules patience depth = invoke .plain patience depth

section Same

variable {rules : Rules} {patience depth : Nat}

theorem expression_eq (h : ∀ k < depth, Same rules patience k) :
    expression rules patience depth = expression .plain patience depth := by
  funext names e
  cases depth with
  | zero => rw [expression, expression]
  | succ depth =>
    have ih := h depth (Nat.lt_succ_self depth)
    cases e <;> simp only [expression, ih.expression, ih.values, ih.apply]

theorem values_eq (h : ∀ k < depth, Same rules patience k) :
    values rules patience depth = values .plain patience depth := by
  funext names es
  cases depth with
  | zero => rw [values, values]
  | succ depth => rw [values, values, (h depth (Nat.lt_succ_self depth)).expression]

theorem below_eq (h : ∀ k < depth, Same rules patience k) :
    expressionBelow rules patience depth = expressionBelow .plain patience depth ∧
      statementBelow rules patience depth = statementBelow .plain patience depth := by
  induction depth with
  | zero =>
    refine ⟨?_, ?_⟩
    · funext k names e
      rw [expressionBelow, expressionBelow]
    · funext k site s
      rw [statementBelow, statementBelow]
  | succ depth ih =>
    have hlast := h depth (Nat.lt_succ_self depth)
    obtain ⟨hexpression, hstatement⟩ := ih fun k hk => h k (Nat.lt_succ_of_lt hk)
    refine ⟨?_, ?_⟩
    · funext k names e
      rw [expressionBelow, expressionBelow, hlast.expression, hexpression]
    · funext k site s
      rw [statementBelow, statementBelow, hlast.statement, hstatement]

theorem statement_eq (hrules : rules.Sound) (h : ∀ k < depth, Same rules patience k) :
    statement rules patience depth = statement .plain patience depth := by
  funext site s
  cases depth with
  | zero => rw [statement, statement]
  | succ depth =>
    cases hs : rules s with
    | some rule =>
      obtain ⟨hexpression, hstatement⟩ := below_eq h
      rw [statement_of_rule hs, hexpression, hstatement, hrules s rule hs]
    | none =>
      have ih := h depth (Nat.lt_succ_self depth)
      rw [statement_of_none hs, statement_plain, ih.expression, ih.statement, ih.statements]

theorem statements_eq (h : ∀ k < depth, Same rules patience k) :
    statements rules patience depth = statements .plain patience depth := by
  funext site body
  cases depth with
  | zero => rw [statements, statements]
  | succ depth => rw [statements, statements, (h depth (Nat.lt_succ_self depth)).statement]

theorem apply_eq (h : ∀ k < depth, Same rules patience k) :
    apply rules patience depth = apply .plain patience depth := by
  funext f arguments paren
  obtain hlt | ⟨depth, rfl⟩ := Parser.lt_or_eq_add 7 depth
  · rw [apply_of_lt hlt, apply_of_lt hlt]
  · rw [apply, apply, (h (depth + 6) (by omega)).invoke]

theorem invoke_eq (h : ∀ k < depth, Same rules patience k) :
    invoke rules patience depth = invoke .plain patience depth := by
  funext f arguments
  obtain hlt | ⟨depth, rfl⟩ := Parser.lt_or_eq_add 4 depth
  · rw [invoke_of_lt hlt, invoke_of_lt hlt]
  · rw [invoke, invoke, (h (depth + 2) (by omega)).statements,
      (h (depth + 2) (by omega)).invoke, (h depth (by omega)).statement]

end Same

/-- Under sound rules all code does what it does without them. -/
theorem Rules.Sound.same {rules : Rules} (h : rules.Sound) (patience depth : Nat) :
    Same rules patience depth := by
  induction depth using Nat.strongRecOn with
  | _ depth ih =>
    exact ⟨expression_eq ih, values_eq ih, statement_eq h ih, statements_eq ih, apply_eq ih,
      invoke_eq ih⟩

theorem Rules.Sound.answer {rules : Rules} (h : rules.Sound) :
    answer rules = answer .plain := by
  funext r
  cases r with
  | define => rfl
  | run limits source =>
    rw [Lexical.answer, Lexical.answer, (h.same limits.patience limits.depth).statement]

theorem Rules.Sound.execute {rules : Rules} (h : rules.Sound) :
    execute rules = execute .plain := by
  funext limits statements
  rw [Lexical.execute, Lexical.execute, (h.same limits.patience limits.depth).statement]

end Scriptling.Lexical

namespace Scriptling.Direct

open Lexical (Site)

/-! ## Loops by their clauses -/

/-- How statements were written: the clauses of those that were a `for`. -/
abbrev Loops := RawStmt → Option ForLoop

/-- Each loop has its clauses for a rule. -/
def Loops.rules (loops : Loops) : Lexical.Rules := fun s => (loops s).map ForLoop.rule

/-- Only what is the tree of a `for` is taken for one. -/
def Faithful (loops : Loops) : Prop := ∀ s f, loops s = some f → s = f.tree

section Loops

variable {loops : Loops} {s : RawStmt} {f : ForLoop}

/-- The levels of all clauses are among those inside the statement. -/
theorem rule_eq (rules : Lexical.Rules) (f : ForLoop) (patience depth : Nat) (site : Site) :
    f.rule patience depth (Lexical.expressionBelow rules patience (depth + 1))
        (Lexical.statementBelow rules patience (depth + 1)) site = (do
      let r ← f.run (Lexical.statement rules patience (depth - 1))
        (Lexical.statement rules patience (f.bodyLevel (f.testLevel depth)))
        (Lexical.expression rules patience (f.testLevel depth))
        (Lexical.expression rules patience (f.testLevel depth - 3)) patience site.names
      return (r, site)) := by
  have htest := f.testLevel_le depth
  have hbody := f.bodyLevel_le (f.testLevel depth)
  rw [ForLoop.rule, Lexical.statementBelow_eq (by omega), Lexical.statementBelow_eq (by omega),
    Lexical.expressionBelow_eq (by omega), Lexical.expressionBelow_eq (by omega)]

/-- A statement that is taken for a loop runs by its clauses, and so does all code in them. -/
theorem statement_of_loop (h : loops s = some f) (patience depth : Nat) (site : Site) :
    Lexical.statement loops.rules patience (depth + 1) site s = (do
      let r ← f.run (Lexical.statement loops.rules patience (depth - 1))
        (Lexical.statement loops.rules patience (f.bodyLevel (f.testLevel depth)))
        (Lexical.expression loops.rules patience (f.testLevel depth))
        (Lexical.expression loops.rules patience (f.testLevel depth - 3)) patience site.names
      return (r, site)) := by
  have hrule : loops.rules s = some f.rule := by
    rw [Loops.rules, h]
    rfl
  rw [Lexical.statement_of_rule hrule, rule_eq]

/-- The clauses of a loop do what its tree does. -/
theorem Faithful.sound (h : Faithful loops) : loops.rules.Sound := by
  intro s rule hrule patience depth site
  obtain ⟨f, hf, rfl⟩ := Option.map_eq_some_iff.1 hrule
  obtain rfl := h s f hf
  rw [rule_eq, f.statement_tree]

end Loops

/-! ## What can be a `for` -/

/-- The condition as it may have been written. -/
def condition? : RawExpr → Option RawExpr
  | .literal (.bool true) => none
  | e => some e

/-- The clauses of a plain loop behind an initializer. -/
def ofLoop? (initializer : Option Initializer) : RawStmt → Option ForLoop
  | .loop condition (.block [body, .expression increment]) =>
    if h : body.keepsScope = true then
      some ⟨initializer, condition? condition, some increment, body, h⟩
    else some ⟨initializer, condition? condition, none, .block [body, .expression increment], rfl⟩
  | .loop condition body =>
    if h : body.keepsScope = true then some ⟨initializer, condition? condition, none, body, h⟩
    else none
  | _ => none

/-- Take each loop for a `for`, with the statement before it if they share a block. -/
def everyLoop : Loops
  | .block [.var name value, s] => ofLoop? (some (.var name value)) s
  | .block [.expression e, s] => ofLoop? (some (.expression e)) s
  | s => ofLoop? none s

theorem condition?_getD (e : RawExpr) : (condition? e).getD (.literal (.bool true)) = e := by
  unfold condition?
  split <;> rfl

theorem loop_of_ofLoop? {i : Option Initializer} {s : RawStmt} {f : ForLoop}
    (h : ofLoop? i s = some f) : f.initializer = i ∧ s = f.loop := by
  unfold ofLoop? at h
  split at h
  · split at h <;> cases h <;> exact ⟨rfl, by simp [ForLoop.loop, ForLoop.pass, condition?_getD]⟩
  · split at h <;> cases h
    exact ⟨rfl, by simp [ForLoop.loop, ForLoop.pass, condition?_getD]⟩
  · cases h

theorem faithful_everyLoop : Faithful everyLoop := by
  intro s f h
  rw [f.tree_eq]
  unfold everyLoop at h
  split at h
  all_goals
    obtain ⟨hinitializer, rfl⟩ := loop_of_ofLoop? h
    simp only [hinitializer, Initializer.statement]

theorem ofLoop?_loop_isSome (i : Option Initializer) (f : ForLoop) :
    (ofLoop? i f.loop).isSome = true := by
  unfold ForLoop.loop ofLoop?
  split
  · split <;> rfl
  · rename_i condition body _ heq
    cases heq
    have hkeeps : f.pass.keepsScope = true := by
      unfold ForLoop.pass
      split
      · rfl
      · exact f.keepsScope
    rw [dif_pos hkeeps]
    rfl
  · rename_i hloop
    exact absurd rfl (hloop _ _)

/-- No `for` is left out. -/
theorem everyLoop_tree_isSome (f : ForLoop) : (everyLoop f.tree).isSome = true := by
  rw [f.tree_eq]
  cases f.initializer with
  | none => exact ofLoop?_loop_isSome none f
  | some i => cases i <;> exact ofLoop?_loop_isSome _ f

end Scriptling.Direct

namespace Scriptling

open Lexical (Site State)

variable {natives : List Native}

/-! ## Loops as they are written -/

/-- A `for` without clauses. -/
def endlessFor : List Token :=
  [⟨.keyword .forWord, "for", none, 1⟩, ⟨.leftParen, "(", none, 1⟩, ⟨.semicolon, ";", none, 1⟩,
    ⟨.semicolon, ";", none, 1⟩, ⟨.rightParen, ")", none, 1⟩, ⟨.leftBrace, "\x7b", none, 1⟩,
    ⟨.rightBrace, "\x7d", none, 1⟩]

/-- A function whose loop has no condition, and ends with a value. -/
def countingRequests : List Request :=
  [.run ⟨60, 5⟩
    "function first() \x7b for (var i = 0; ; i = i + 1) if (i > 1) return i; \x7d"]

theorem countingRequests_fair : ∀ r ∈ countingRequests, r.Fair Native.standard := by
  intro r hr
  cases List.mem_singleton.1 hr
  trivial

/-- A function that is declared in each pass sees the variable of the loop, not one of its pass. -/
def countingSource : String :=
  "var f; for (var i = 0; i < 3; i = i + 1) \x7b function g() \x7b return i; \x7d f = g; \x7d " ++
    "print f(); print first();"

/-- The tree that is read for a `for` does, wherever it is executed, what the clauses do by their
own rule; and a session does what it does where such loops are run by that rule, be it all of them
or some. -/
theorem for_loops_run_as_written (hhost : FairHost True natives) (time : Float)
    {requests : List Request} (hrequests : ∀ r ∈ requests, r.Fair natives) :
    (∀ (size budget : Nat) (ts rest : List Token) (t : RawStmt),
      Parser.StartsWith (.keyword .forWord) ts →
      Parser.Gives (Parser.statement size budget) ts t rest →
      ∃ (f : ForLoop) (used : List Token), ts = used ++ rest ∧ f.Written used ∧ t = f.tree) ∧
    (∀ (f : ForLoop) (patience depth : Nat) (site : Site),
      Lexical.statement .plain patience (depth + 1) site f.tree = (do
        let r ← f.run (Lexical.statement .plain patience (depth - 1))
          (Lexical.statement .plain patience (f.bodyLevel (f.testLevel depth)))
          (Lexical.expression .plain patience (f.testLevel depth))
          (Lexical.expression .plain patience (f.testLevel depth - 3)) patience site.names
        return (r, site))) ∧
    (Direct.Faithful Direct.everyLoop ∧ ∀ f : ForLoop, (Direct.everyLoop f.tree).isSome = true) ∧
    ∀ loops : Direct.Loops, Direct.Faithful loops →
      (∀ (s : RawStmt) (f : ForLoop), loops s = some f → ∀ (patience depth : Nat) (site : Site),
        Lexical.statement loops.rules patience (depth + 1) site s = (do
          let r ← f.run (Lexical.statement loops.rules patience (depth - 1))
            (Lexical.statement loops.rules patience (f.bodyLevel (f.testLevel depth)))
            (Lexical.expression loops.rules patience (f.testLevel depth))
            (Lexical.expression loops.rules patience (f.testLevel depth - 3)) patience site.names
          return (r, site))) ∧
      let w := ((World.create natives time).serve requests).2
      let s := (Runs.serve (Lexical.answer loops.rules) requests (State.create natives time)).2
      SameView w s ∧ ∀ limits source, w.Accepts limits source →
        let r := Runs.request
          (Lexical.execute loops.rules limits (read (limits.depth - 5) source).statements) s
        r.1 = (w.run limits source).1 ∧ SameView (w.run limits source).2 r.2 := by
  refine ⟨fun size budget ts rest t hfor hgives => hgives.exists_forLoop hfor,
    fun f patience depth site => f.statement_tree depth site,
    ⟨Direct.faithful_everyLoop, Direct.everyLoop_tree_isSome⟩, fun loops hloops => ?_⟩
  obtain ⟨q, hq, -, hworld, hlexical⟩ := agree_after hhost time hrequests
  have hstate : (Runs.serve (Lexical.answer loops.rules) requests (State.create natives time)).2 =
      q.lexical := by
    rw [hloops.sound.answer]
    exact hlexical
  rw [hloops.sound.execute, hworld, hstate]
  exact ⟨fun s f hf => Direct.statement_of_loop hf, hq.sameView,
    fun limits source haccepts => hq.execute hhost haccepts⟩

theorem counting_runs_as_written :
    let w := ((World.create Native.standard 0).serve countingRequests).2
    let s := (Runs.serve (Lexical.answer Direct.everyLoop.rules) countingRequests
      (State.create Native.standard 0)).2
    let r := Runs.request
      (Lexical.execute Direct.everyLoop.rules ⟨60, 5⟩ (read 55 countingSource).statements) s
    (∃ (f : ForLoop) (used : List Token), endlessFor = used ++ [] ∧ f.Written used ∧
        .loop (.literal (.bool true)) (.block []) = f.tree) ∧
      (read 55 countingSource).statements.map (fun t => (Direct.everyLoop t).isSome) =
        [false, true, false, false] ∧
      r.1 = (w.run ⟨60, 5⟩ countingSource).1 ∧ SameView (w.run ⟨60, 5⟩ countingSource).2 r.2 ∧
      r.2.printed = #["3", "2"] := by
  obtain ⟨hread, -, ⟨hfaithful, -⟩, hdirect⟩ :=
    for_loops_run_as_written (fairHost_standard True) 0 countingRequests_fair
  obtain ⟨hending, hview⟩ := (hdirect Direct.everyLoop hfaithful).2.2 ⟨60, 5⟩ countingSource
    ⟨by decide, by decide +kernel, by decide +kernel⟩
  exact ⟨hread 9 9 endlessFor [] _ ⟨_, _, rfl, rfl⟩ rfl, by decide +kernel, hending, hview,
    hview.printed.trans (by decide +kernel)⟩

end Scriptling
