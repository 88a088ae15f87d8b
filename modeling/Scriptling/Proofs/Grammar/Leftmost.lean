-- The leftmost token of a statement. The first line of a statement is the line of the first token
-- that its tree keeps, and a tree keeps its tokens nearly in the order in which they are written:
-- only the closing parenthesis of a call is kept before the arguments, and the increment of a `for`
-- behind the body. So the first line is that of the leftmost token unless one of these two comes
-- first.
import Scriptling.Proofs.Grammar.Acceptance
import Scriptling.Proofs.Source.Lines

namespace Scriptling

/-! ## Tokens in two orders -/

/-- The same tokens as a tree keeps them and as they are written. They are straight if both orders
start with the same token; if not, the one that is kept first is written further on. -/
structure Arrangement where
  kept : List Token
  written : List Token
  straight : Bool
  perm : written.Perm kept
  lead : straight = true → written.head? = kept.head?
  astray : straight = false → ∃ t ∈ written.tail, kept.head? = some t

namespace Arrangement

theorem kept_eq_nil (a : Arrangement) (h : a.written = []) : a.kept = [] := by
  have hperm := a.perm
  rw [h] at hperm
  exact hperm.nil_eq.symm

theorem kept_ne_nil (a : Arrangement) (h : a.written ≠ []) : a.kept ≠ [] := by
  intro hkept
  have hperm := a.perm
  rw [hkept] at hperm
  exact h hperm.eq_nil

/-- Tokens that are kept as they are written. -/
def plain (ts : List Token) : Arrangement where
  kept := ts
  written := ts
  straight := true
  perm := .refl ts
  lead _ := rfl
  astray := nofun

/-- What is written first is kept first. Both orders start as those of the first part, if it has any
token. -/
def append (a b : Arrangement) : Arrangement where
  kept := a.kept ++ b.kept
  written := a.written ++ b.written
  straight := if a.written = [] then b.straight else a.straight
  perm := a.perm.append b.perm
  lead h := by
    by_cases ha : a.written = []
    · rw [if_pos ha] at h
      rw [ha, a.kept_eq_nil ha]
      exact b.lead h
    · rw [if_neg ha] at h
      rw [List.head?_append_of_ne_nil _ ha, List.head?_append_of_ne_nil _ (a.kept_ne_nil ha)]
      exact a.lead h
  astray h := by
    by_cases ha : a.written = []
    · rw [if_pos ha] at h
      rw [ha, a.kept_eq_nil ha]
      exact b.astray h
    · rw [if_neg ha] at h
      obtain ⟨t, ht, hhead⟩ := a.astray h
      rw [List.tail_append_of_ne_nil ha, List.head?_append_of_ne_nil _ (a.kept_ne_nil ha)]
      exact ⟨t, List.mem_append_left _ ht, hhead⟩

/-- What is kept first is written last. Both orders can start with the same token only if one of the
parts has none. -/
def exchange (a b : Arrangement) : Arrangement where
  kept := a.kept ++ b.kept
  written := b.written ++ a.written
  straight :=
    if a.written = [] then b.straight else if b.written = [] then a.straight else false
  perm := (b.perm.append a.perm).trans List.perm_append_comm
  lead h := by
    by_cases ha : a.written = []
    · rw [if_pos ha] at h
      rw [ha, a.kept_eq_nil ha, List.append_nil]
      exact b.lead h
    · rw [if_neg ha] at h
      by_cases hb : b.written = []
      · rw [if_pos hb] at h
        rw [hb, b.kept_eq_nil hb, List.append_nil]
        exact a.lead h
      · rw [if_neg hb] at h
        cases h
  astray h := by
    by_cases ha : a.written = []
    · rw [if_pos ha] at h
      rw [ha, a.kept_eq_nil ha, List.append_nil]
      exact b.astray h
    · rw [if_neg ha] at h
      by_cases hb : b.written = []
      · rw [if_pos hb] at h
        rw [hb, b.kept_eq_nil hb, List.append_nil]
        exact a.astray h
      · -- the first kept token is one of `a`, and all of `b` is written before it
        obtain ⟨t, us, hkept⟩ := List.exists_cons_of_ne_nil (a.kept_ne_nil ha)
        have ht : t ∈ a.written := a.perm.mem_iff.2 (by rw [hkept]; exact List.mem_cons_self)
        rw [List.tail_append_of_ne_nil hb, hkept]
        exact ⟨t, List.mem_append_right _ ht, rfl⟩

end Arrangement

/-! ## Expressions -/

mutual
/-- The tokens of an expression. The closing parenthesis of a call is kept before the arguments. -/
def Expr.arrangement : RawExpr → Arrangement
  | .literal _ | .alien _ => .plain []
  | .grouping inner => inner.arrangement
  | .unary operator right => (Arrangement.plain [operator]).append right.arrangement
  | .binary left operator right | .logical left operator right =>
    left.arrangement.append ((Arrangement.plain [operator]).append right.arrangement)
  | .variable name _ => .plain [name]
  | .assign name value _ => (Arrangement.plain [name]).append value.arrangement
  | .call callee paren arguments =>
    callee.arrangement.append
      ((Arrangement.plain [paren]).exchange (Expr.arrangementOfAll arguments))

def Expr.arrangementOfAll : List RawExpr → Arrangement
  | [] => .plain []
  | e :: rest => e.arrangement.append (Expr.arrangementOfAll rest)
end

def Expr.arrangementOfOption (e : Option RawExpr) : Arrangement :=
  e.elim (.plain []) Expr.arrangement

mutual
theorem Expr.kept_arrangement : ∀ e : RawExpr, e.arrangement.kept = e.tokens
  | .literal _ | .alien _ | .variable .. => rfl
  | .grouping inner => inner.kept_arrangement
  | .unary operator right => congrArg (operator :: ·) right.kept_arrangement
  | .binary left operator right | .logical left operator right => by
    simp [Expr.arrangement, Arrangement.append, Arrangement.plain, Expr.tokens,
      left.kept_arrangement, right.kept_arrangement]
  | .assign name value _ => congrArg (name :: ·) value.kept_arrangement
  | .call callee paren arguments => by
    simp [Expr.arrangement, Arrangement.append, Arrangement.exchange, Arrangement.plain,
      Expr.tokens, callee.kept_arrangement, Expr.kept_arrangementOfAll arguments]

theorem Expr.kept_arrangementOfAll : ∀ es : List RawExpr,
    (Expr.arrangementOfAll es).kept = Expr.tokensOfAll es
  | [] => rfl
  | e :: rest => by
    simp [Expr.arrangementOfAll, Arrangement.append, Expr.tokensOfAll, e.kept_arrangement,
      Expr.kept_arrangementOfAll rest]
end

theorem Expr.kept_arrangementOfOption (e : Option RawExpr) :
    (Expr.arrangementOfOption e).kept = Expr.tokensOfOption e := by
  cases e with
  | none => rfl
  | some e => exact e.kept_arrangement

/-! ## Statements as they are written -/

/-- A statement as it is written, where a `for` is still one. -/
inductive SourceStmt
  | expression (e : RawExpr)
  | print (e : RawExpr)
  | var (name : Token) (initializer : Option RawExpr)
  | block (body : List SourceStmt)
  | branch (condition : RawExpr) (yes : SourceStmt) (no : Option SourceStmt)
  | loop (condition : RawExpr) (body : SourceStmt)
  | forLoop (initializer : Option SourceStmt) (condition increment : Option RawExpr)
      (body : SourceStmt)
  | function (name : Token) (parameters : List Token) (body : List SourceStmt)
  | giveBack (keyword : Token) (value : Option RawExpr)

namespace SourceStmt

mutual
/-- The tree that a statement stands for. -/
def tree : SourceStmt → RawStmt
  | .expression e => .expression e
  | .print e => .print e
  | .var name initializer => .var name initializer
  | .block body => .block (treeOfAll body)
  | .branch condition yes no => .branch condition yes.tree (treeOfOption no)
  | .loop condition body => .loop condition body.tree
  | .forLoop initializer condition increment body =>
    Parser.forLoop (treeOfOption initializer) condition increment body.tree
  | .function name parameters body => .function name parameters (treeOfAll body)
  | .giveBack keyword value => .giveBack keyword value

def treeOfOption : Option SourceStmt → Option RawStmt
  | none => none
  | some w => some w.tree

def treeOfAll : List SourceStmt → List RawStmt
  | [] => []
  | w :: rest => w.tree :: treeOfAll rest
end

mutual
/-- The tokens of a statement. The increment of a `for` is kept behind the body. -/
def arrangement : SourceStmt → Arrangement
  | .expression e | .print e => e.arrangement
  | .var name initializer =>
    (Arrangement.plain [name]).append (Expr.arrangementOfOption initializer)
  | .block body => arrangementOfAll body
  | .branch condition yes no =>
    (condition.arrangement.append yes.arrangement).append (arrangementOfOption no)
  | .loop condition body => condition.arrangement.append body.arrangement
  | .forLoop initializer condition increment body =>
    (arrangementOfOption initializer).append ((Expr.arrangementOfOption condition).append
      (body.arrangement.exchange (Expr.arrangementOfOption increment)))
  | .function name parameters body =>
    (Arrangement.plain (name :: parameters)).append (arrangementOfAll body)
  | .giveBack keyword value =>
    (Arrangement.plain [keyword]).append (Expr.arrangementOfOption value)

def arrangementOfOption : Option SourceStmt → Arrangement
  | none => .plain []
  | some w => w.arrangement

def arrangementOfAll : List SourceStmt → Arrangement
  | [] => .plain []
  | w :: rest => w.arrangement.append (arrangementOfAll rest)
end

theorem tokens_forLoop (i : Option RawStmt) (c n : Option RawExpr) (s : RawStmt) :
    (Parser.forLoop i c n s).tokens =
      Stmt.tokensOfOption i ++ (Expr.tokensOfOption c ++ (s.tokens ++ Expr.tokensOfOption n)) := by
  have htest : (c.getD (.literal (.bool true))).tokens = Expr.tokensOfOption c := by
    cases c <;> rfl
  unfold Parser.forLoop
  cases i <;> cases n <;>
    simp [Stmt.tokens, Stmt.tokensOfAll, Stmt.tokensOfOption, Expr.tokensOfOption, htest]

mutual
/-- The tokens of an arrangement are kept as the tree keeps them. -/
theorem kept_arrangement : ∀ w : SourceStmt, w.arrangement.kept = w.tree.tokens
  | .expression e | .print e => e.kept_arrangement
  | .var name initializer =>
    congrArg (name :: ·) (Expr.kept_arrangementOfOption initializer)
  | .block body => kept_arrangementOfAll body
  | .branch condition yes no => by
    simp [arrangement, Arrangement.append, tree, Stmt.tokens, condition.kept_arrangement,
      yes.kept_arrangement, kept_arrangementOfOption no]
  | .loop condition body => by
    simp [arrangement, Arrangement.append, tree, Stmt.tokens, condition.kept_arrangement,
      body.kept_arrangement]
  | .forLoop initializer condition increment body => by
    simp [arrangement, Arrangement.append, Arrangement.exchange, tree, tokens_forLoop,
      kept_arrangementOfOption initializer, Expr.kept_arrangementOfOption, body.kept_arrangement]
  | .function name parameters body => by
    simp [arrangement, Arrangement.append, Arrangement.plain, tree, Stmt.tokens,
      kept_arrangementOfAll body]
  | .giveBack keyword value =>
    congrArg (keyword :: ·) (Expr.kept_arrangementOfOption value)

theorem kept_arrangementOfOption : ∀ o : Option SourceStmt,
    (arrangementOfOption o).kept = Stmt.tokensOfOption (treeOfOption o)
  | none => rfl
  | some w => w.kept_arrangement

theorem kept_arrangementOfAll : ∀ ws : List SourceStmt,
    (arrangementOfAll ws).kept = Stmt.tokensOfAll (treeOfAll ws)
  | [] => rfl
  | w :: rest => by
    simp [arrangementOfAll, Arrangement.append, treeOfAll, Stmt.tokensOfAll, w.kept_arrangement,
      kept_arrangementOfAll rest]
end

end SourceStmt

/-! ## Readings keep the order of their tokens -/

namespace Grammar

/-- The tokens of a phrase that its tree keeps, as they are written. -/
def Symbol.written : (s : Symbol) → s.Tree → List Token
  | .arguments, es => (Expr.arrangementOfAll es).written
  | .expression, e | .ladder _, e | .unary, e | .call, e | .primary, e => e.arrangement.written

theorem Derives.written_sublist {s : Symbol} {ts : List Token} {t : s.Tree}
    (h : Derives s ts t) : (s.written t).Sublist ts := by
  induction h with
  | assign _ _ _ ih => exact (ih.cons _).cons_cons _
  | logicOr _ ih | operand _ ih | tightest _ ih | unsigned _ ih | uncalled _ ih => exact ih
  | @operation l _ _ _ operator e e' _ _ _ ih ih' =>
    have hnode : (l.node e operator e').arrangement =
        e.arrangement.append ((Arrangement.plain [operator]).append e'.arrangement) := by
      cases l <;> rfl
    simp only [Symbol.written, hnode]
    exact ih.append (ih'.cons_cons operator)
  | sign _ _ ih => exact ih.cons_cons _
  | @callEmpty opening closing _ _ _ _ _ ih =>
    exact ih.append ((List.Sublist.refl [closing]).cons opening)
  | @callWith opening closing _ _ _ _ _ _ _ _ _ ih ih' =>
    rw [List.append_assoc]
    exact ih.append ((ih'.append (List.Sublist.refl [closing])).cons opening)
  | @lastArgument _ e _ ih =>
    simpa [Symbol.written, Expr.arrangementOfAll, Arrangement.append, Arrangement.plain] using ih
  | argument _ _ _ ih ih' => exact ih.append (ih'.cons _)
  | falseWord | trueWord | nilWord | literal => exact List.nil_sublist _
  | name => exact List.Sublist.refl _
  | grouping _ _ _ ih =>
    exact (ih.trans (List.sublist_append_left _ _)).cons _

theorem Perhaps.written_sublist {ts : List Token} {e : Option RawExpr} (h : Perhaps ts e) :
    (Expr.arrangementOfOption e).written.Sublist ts := by
  cases h with
  | absent => exact List.Sublist.refl []
  | present h => exact h.written_sublist

theorem Separated.names_sublist {ts names : List Token} (h : Separated IsName ts names) :
    names.Sublist ts := by
  induction h with
  | last h => rw [h.1]
  | more h _ _ ih =>
    rw [h.1]
    exact (ih.cons _).cons_cons _

theorem Parameters.names_sublist {ts names : List Token} (h : Parameters ts names) :
    names.Sublist ts := by
  cases h with
  | none => exact List.Sublist.refl []
  | some h _ => exact h.names_sublist

/-- A clause can be written so that the tokens of its tree come in the order of the source. -/
def WrittenIn : (p : Clause) → List Token → p.Tree → Prop
  | .declarations, ts, ss | .block, ts, ss =>
    ∃ ws, SourceStmt.treeOfAll ws = ss ∧ (SourceStmt.arrangementOfAll ws).written.Sublist ts
  | .initializer, ts, i =>
    ∃ o, SourceStmt.treeOfOption o = i ∧ (SourceStmt.arrangementOfOption o).written.Sublist ts
  | .declaration, ts, s | .varDecl, ts, s | .statement _, ts, s | .exprStmt, ts, s =>
    ∃ w : SourceStmt, w.tree = s ∧ w.arrangement.written.Sublist ts

theorem Reads.writtenIn {p : Clause} {ts : List Token} {t : p.Tree} (h : Reads p ts t) :
    WrittenIn p ts t := by
  induction h with
  | noDeclaration => exact ⟨[], rfl, List.Sublist.refl []⟩
  | declarations _ _ ih ih' =>
    obtain ⟨w, rfl, hfirst⟩ := ih
    obtain ⟨ws, rfl, hmore⟩ := ih'
    exact ⟨w :: ws, rfl, hfirst.append hmore⟩
  | @function word name opening closing _ _ _ _ _ _ _ parameters _ _ ih =>
    obtain ⟨ws, rfl, hbody⟩ := ih
    refine ⟨.function name _ ws, rfl, ?_⟩
    exact (((parameters.names_sublist.append (hbody.cons closing)).cons opening).cons_cons
      name).cons word
  | varDecl _ ih | statement _ ih | exprStmt _ ih => exact ih
  | @plainVar word name semicolon =>
    exact ⟨.var name none, rfl, ((List.nil_sublist [semicolon]).cons_cons name).cons word⟩
  | @initializedVar word name equals semicolon _ e _ _ _ value =>
    refine ⟨.var name (some e), rfl, ?_⟩
    have hvalue := value.written_sublist.trans (List.sublist_append_left _ [semicolon])
    exact ((hvalue.cons equals).cons_cons name).cons word
  | @expression semicolon _ e value =>
    exact ⟨.expression e, rfl, value.written_sublist.trans (List.sublist_append_left _ [semicolon])⟩
  | noInitializer => exact ⟨none, rfl, List.nil_sublist _⟩
  | varInitializer _ ih | exprInitializer _ ih =>
    obtain ⟨w, rfl, hw⟩ := ih
    exact ⟨some w, rfl, hw⟩
  | @forLoop _ word opening semicolon closing _ _ _ _ _ c n _ _ _ _ condition _ increment _ _
      ih ih' =>
    obtain ⟨i, rfl, hinitializer⟩ := ih
    obtain ⟨w, rfl, hbody⟩ := ih'
    refine ⟨.forLoop i c n w, rfl, ?_⟩
    -- the increment stands before the body, as in the arrangement
    have hclauses := increment.written_sublist.append (hbody.cons closing)
    have hhead := hinitializer.append (condition.written_sublist.append (hclauses.cons semicolon))
    simpa [SourceStmt.arrangement, Arrangement.append, Arrangement.exchange] using
      (hhead.cons opening).cons word
  | @ifThen _ word opening closing _ _ e _ _ _ condition _ _ ih =>
    obtain ⟨w, rfl, hyes⟩ := ih
    refine ⟨.branch e w none, rfl, ?_⟩
    have hparts := condition.written_sublist.append (hyes.cons closing)
    simpa [SourceStmt.arrangement, SourceStmt.arrangementOfOption, Arrangement.append,
      Arrangement.plain, Symbol.written] using (hparts.cons opening).cons word
  | @ifElse _ word opening closing other _ _ _ e _ _ _ _ condition _ _ _ _ ih ih' =>
    obtain ⟨w, rfl, hyes⟩ := ih
    obtain ⟨w', rfl, hno⟩ := ih'
    refine ⟨.branch e w (some w'), rfl, ?_⟩
    have hparts := (condition.written_sublist.append (hyes.cons closing)).append (hno.cons other)
    simpa [SourceStmt.arrangement, SourceStmt.arrangementOfOption, Arrangement.append,
      Symbol.written] using (hparts.cons opening).cons word
  | @print word semicolon _ e _ value =>
    have hvalue := value.written_sublist.trans (List.sublist_append_left _ [semicolon])
    exact ⟨.print e, rfl, hvalue.cons word⟩
  | @giveBack word semicolon _ e _ value =>
    have hvalue := value.written_sublist.trans (List.sublist_append_left _ [semicolon])
    exact ⟨.giveBack word e, rfl, hvalue.cons_cons word⟩
  | @whileLoop _ word opening closing _ _ e _ _ _ condition _ _ ih =>
    obtain ⟨w, rfl, hbody⟩ := ih
    refine ⟨.loop e w, rfl, ?_⟩
    exact ((condition.written_sublist.append (hbody.cons closing)).cons opening).cons word
  | block _ ih =>
    obtain ⟨ws, rfl, hbody⟩ := ih
    exact ⟨.block ws, rfl, hbody⟩
  | braces _ _ _ ih =>
    obtain ⟨ws, rfl, hbody⟩ := ih
    exact ⟨ws, rfl, (hbody.trans (List.sublist_append_left _ _)).cons _⟩

end Grammar

/-! ## First lines -/

theorem SourceStmt.exists_of_mem_treeOfAll {ws : List SourceStmt} {s : RawStmt}
    (h : s ∈ treeOfAll ws) :
    ∃ w : SourceStmt, w.tree = s ∧ w.arrangement.written.Sublist (arrangementOfAll ws).written := by
  induction ws with
  | nil => cases h
  | cons w ws ih =>
    rcases List.mem_cons.1 h with rfl | h
    · exact ⟨w, rfl, List.sublist_append_left _ _⟩
    · obtain ⟨w', htree, hsublist⟩ := ih h
      exact ⟨w', htree, hsublist.trans (List.sublist_append_right _ _)⟩

theorem lex_lines_mono (source : String) :
    (lex source).tokens.Pairwise fun t u => t.line ≤ u.line := by
  have htiling := tiling_pieces source.toList
  have hpairwise := (List.pairwise_append.1 htiling.lines_pairwise).1
  rw [← htiling.tokens_line, List.pairwise_map] at hpairwise
  exact hpairwise

/-- A statement that was read can be written in the order of its source. -/
theorem exists_written {limit : Nat} {tokens : List Token}
    (h : (parse limit tokens).complaints = []) {s : RawStmt}
    (hs : s ∈ (parse limit tokens).statements) :
    ∃ w : SourceStmt, w.tree = s ∧ w.arrangement.written.Sublist tokens := by
  obtain ⟨rest, hgives⟩ := Parser.complaints_eq_nil_iff.1 h
  obtain ⟨ws, htrees, hsublist⟩ := (Parser.gives_declarations hgives).writtenIn
  rw [← htrees] at hs
  obtain ⟨w, htree, hw⟩ := SourceStmt.exists_of_mem_treeOfAll hs
  exact ⟨w, htree, hw.trans hsublist⟩

section FirstLine

variable {s : RawStmt} {a : Arrangement} {first t : Token} {rest : List Token}

theorem Stmt.firstLine_of_head? (h : s.tokens.head? = some t) : s.firstLine = t.line := by
  rw [Stmt.firstLine, h]
  rfl

theorem Stmt.exists_line_of_tokens (h : s.tokens ≠ []) : ∃ t ∈ s.tokens, s.firstLine = t.line := by
  obtain ⟨t, ts, htokens⟩ := List.exists_cons_of_ne_nil h
  refine ⟨t, by simp [htokens], firstLine_of_head? ?_⟩
  rw [htokens]
  rfl

theorem Arrangement.firstLine_of_straight (hkept : a.kept = s.tokens)
    (hwritten : a.written = first :: rest) (h : a.straight = true) :
    s.firstLine = first.line := by
  have hlead := a.lead h
  rw [hwritten, hkept] at hlead
  exact Stmt.firstLine_of_head? hlead.symm

theorem Arrangement.firstLine_of_astray (hkept : a.kept = s.tokens)
    (hwritten : a.written = first :: rest) (h : a.straight = false) :
    ∃ t ∈ rest, s.firstLine = t.line := by
  obtain ⟨t, ht, hhead⟩ := a.astray h
  rw [hwritten] at ht
  rw [hkept] at hhead
  exact ⟨t, ht, Stmt.firstLine_of_head? hhead⟩

/-- The token that is written first is on no line behind another one. -/
theorem Arrangement.first_le (hlines : a.written.Pairwise fun t u => t.line ≤ u.line)
    (hwritten : a.written = first :: rest) (ht : t ∈ a.kept) : first.line ≤ t.line := by
  rw [← a.perm.mem_iff, hwritten] at ht
  rw [hwritten] at hlines
  rcases List.mem_cons.1 ht with rfl | ht
  · exact Int.le_refl _
  · exact List.rel_of_pairwise_cons hlines ht

end FirstLine

/-- Each statement of a source without errors can be written so that its tokens come in the order of
the source, and whichever way that is done, the first of them is on the least line. If the
arrangement is straight, this is the first line of the statement. If not, a call without a token
before its parentheses or a `for` without one before its increment comes first, and the first line
is that of a token further on: it is the least line only if this token is on the same line. -/
theorem firstLine_by_arrangement {limit : Nat} {source : String}
    (h : (read limit source).errors = []) {s : RawStmt} (hs : s ∈ (read limit source).statements) :
    (∃ w : SourceStmt, w.tree = s ∧ w.arrangement.written.Sublist (lex source).tokens) ∧
      ∀ w : SourceStmt, w.tree = s → w.arrangement.written.Sublist (lex source).tokens →
        w.arrangement.written.Perm s.tokens ∧
        ∀ first rest, w.arrangement.written = first :: rest →
          (∃ t ∈ s.tokens, s.firstLine = t.line) ∧
          (∀ t ∈ s.tokens, first.line ≤ t.line) ∧
          ((∀ t ∈ s.tokens, s.firstLine ≤ t.line) ↔ s.firstLine = first.line) ∧
          (w.arrangement.straight = true → s.firstLine = first.line) ∧
          (w.arrangement.straight = false → ∃ t ∈ rest, s.firstLine = t.line) := by
  have hquiet : (parse limit (lex source).tokens).complaints = [] :=
    List.map_eq_nil_iff.1 (List.append_eq_nil_iff.1 h).2
  refine ⟨exists_written hquiet hs, ?_⟩
  rintro w rfl hsublist
  have hkept := w.kept_arrangement
  have hlines := (lex_lines_mono source).sublist hsublist
  have hperm := w.arrangement.perm
  rw [hkept] at hperm
  refine ⟨hperm, fun first rest hwritten => ?_⟩
  have hfirst : first ∈ w.tree.tokens := hperm.mem_iff.1 (by simp [hwritten])
  have hleast : ∀ t ∈ w.tree.tokens, first.line ≤ t.line := by
    intro t ht
    rw [← hkept] at ht
    exact Arrangement.first_le hlines hwritten ht
  obtain ⟨t, ht, hline⟩ := Stmt.exists_line_of_tokens (List.ne_nil_of_mem hfirst)
  refine ⟨⟨t, ht, hline⟩, hleast, ⟨fun h => ?_, fun h => ?_⟩, ?_, ?_⟩
  · have hle := hleast t ht
    rw [← hline] at hle
    exact Int.le_antisymm (h first hfirst) hle
  · rw [h]
    exact hleast
  · exact Arrangement.firstLine_of_straight hkept hwritten
  · exact Arrangement.firstLine_of_astray hkept hwritten

/-- The callee, the parenthesis and the argument of a call of a name with a name. -/
def plainCall? : RawStmt → Option (Token × Token × Token)
  | .expression (.call (.variable callee _) paren [.variable argument _]) =>
    some (callee, paren, argument)
  | _ => none

theorem eq_of_plainCall? {s : RawStmt} {callee paren argument : Token}
    (h : plainCall? s = some (callee, paren, argument)) :
    s = .expression (.call (.variable callee ()) paren [.variable argument ()]) := by
  unfold plainCall? at h
  split at h
  · cases h
    rfl
  · cases h

/-- A call that starts with a name, over three lines. -/
def tallCall : String := "f(\na\n);"

/-- The parenthesis is kept before the argument, and yet the name stands before both. -/
theorem tallCall_firstLine :
    (read nestingLimit tallCall).errors = [] ∧
      ∃ s ∈ (read nestingLimit tallCall).statements,
        s.tokens.map (fun t => (t.lexeme, t.line)) = [("f", 1), (")", 3), ("a", 2)] ∧
        ∀ t ∈ s.tokens, s.firstLine ≤ t.line := by
  have hquiet : (read nestingLimit tallCall).errors = [] := by decide +kernel
  have hcall : (read nestingLimit tallCall).statements.map plainCall? =
      [some (⟨.identifier, "f", none, 1⟩, ⟨.rightParen, ")", none, 3⟩,
        ⟨.identifier, "a", none, 2⟩)] := by decide +kernel
  obtain ⟨s, hstatements, hs⟩ := List.map_eq_singleton_iff.1 hcall
  have hmem : s ∈ (read nestingLimit tallCall).statements := by
    rw [hstatements]
    exact List.mem_singleton_self s
  obtain rfl := eq_of_plainCall? hs
  obtain ⟨-, hwritten⟩ := firstLine_by_arrangement hquiet hmem
  obtain ⟨-, hfirst⟩ := hwritten (.expression _) rfl (by decide +kernel)
  obtain ⟨-, -, hleast, hstraight, -⟩ := hfirst _ _ rfl
  exact ⟨hquiet, _, hmem, rfl, hleast.2 (hstraight rfl)⟩

/-- Where the callee is a number, the closing parenthesis is kept before all other tokens; and a
loop keeps its body before its increment. -/
theorem firstLine_behind_leftmost :
    ((read nestingLimit "1(\na\n);").errors = [] ∧
      ∃ s ∈ (read nestingLimit "1(\na\n);").statements, ∃ t ∈ s.tokens, t.line < s.firstLine) ∧
    (read nestingLimit "for (;; i)\nx;").errors = [] ∧
      ∃ s ∈ (read nestingLimit "for (;; i)\nx;").statements,
        ∃ t ∈ s.tokens, t.line < s.firstLine := by
  decide +kernel

end Scriptling
