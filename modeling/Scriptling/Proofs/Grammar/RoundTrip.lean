-- The round trip between trees and tokens. A neat tree, written out and read, comes back as it
-- was; tokens that are read without a complaint come back when what was read is written out, up
-- to what a tree does not keep.
import Scriptling.Proofs.Grammar.Acceptance
import Scriptling.Proofs.Grammar.Writing
import Scriptling.Proofs.Source.Tiling

namespace Scriptling

open Grammar

/-! ## Neat expressions are derived -/

namespace Grammar

/-- The tokens derive from what binds as tightly as the rank says. -/
def Binds : Nat → List Token → RawExpr → Prop
  | 0 => Derives .expression
  | 7 => Derives .unary
  | 8 => Derives .call
  | 9 => Derives .primary
  | level => Derives (.ladder (Level.all.drop (level - 1)))

/-- What binds more tightly may stand where less is asked. -/
theorem Binds.succ {rank : Nat} {ts : List Token} {e : RawExpr} (hrank : rank < 9)
    (h : Binds (rank + 1) ts e) : Binds rank ts e := by
  match rank, hrank, h with
  | 0, _, h => exact .logicOr h
  | 1, _, h | 2, _, h | 3, _, h | 4, _, h | 5, _, h => exact .operand h
  | 6, _, h => exact .operand (.tightest h)
  | 7, _, h => exact .unsigned h
  | 8, _, h => exact .uncalled h

theorem Binds.mono {rank rank' : Nat} {ts : List Token} {e : RawExpr} (hle : rank ≤ rank')
    (htop : rank' ≤ 9) (h : Binds rank' ts e) : Binds rank ts e := by
  induction hle with
  | refl => exact h
  | step _ ih => exact ih (by omega) (h.succ (by omega))

theorem Binds.ladder {level : Nat} {ts : List Token} {e : RawExpr} (hlevel : level ≤ 6)
    (h : Binds (level + 1) ts e) : Derives (.ladder (Level.all.drop level)) ts e := by
  match level, hlevel, h with
  | 0, _, h | 1, _, h | 2, _, h | 3, _, h | 4, _, h | 5, _, h => exact h
  | 6, _, h => exact .tightest h

theorem Level.ofBinary?_spec {k : Kind} {l : Level} (h : Level.ofBinary? k = some l) :
    k ∈ l.operators ∧ l.node = Expr.binary := by
  unfold Level.ofBinary? at h
  split at h <;> cases h <;> exact ⟨by decide, rfl⟩

theorem Level.ofLogical?_spec {k : Kind} {l : Level} (h : Level.ofLogical? k = some l) :
    k ∈ l.operators ∧ l.node = Expr.logical := by
  unfold Level.ofLogical? at h
  split at h <;> cases h <;> exact ⟨by decide, rfl⟩

theorem Level.elim_rank_le (l : Option Level) : l.elim 0 Level.rank ≤ 9 := by
  cases l with
  | none => simp
  | some l => cases l <;> simp [Level.rank]

end Grammar

theorem Expr.rank_le (e : RawExpr) : e.rank ≤ 9 := by
  cases e with
  | logical | binary => exact Level.elim_rank_le _
  | _ => simp [Expr.rank]

theorem Grammar.binds_operation {l : Level} {operator : Token} {left right : RawExpr}
    {ts us : List Token} (hoperator : operator.kind ∈ l.operators)
    (hleft : l.rank ≤ left.rank) (hright : l.rank < right.rank)
    (h : Binds left.rank ts left) (h' : Binds right.rank us right) :
    Binds l.rank (ts ++ operator :: us) (l.node left operator right) := by
  have hl := h.mono hleft left.rank_le
  have hr := h'.mono hright right.rank_le
  cases l with
  | logicOr | logicAnd | equality | comparison | term | factor =>
    exact .operation hl hoperator (Binds.ladder (by decide) hr)

mutual
/-- A neat expression derives from what it is written as. -/
theorem Expr.binds_write : ∀ e : RawExpr, e.neat = true → Binds e.rank e.write e
  | .literal value, h => by
    cases value with
    | nil => exact .nilWord rfl
    | bool b =>
      cases b with
      | false => exact .falseWord rfl
      | true => exact .trueWord rfl
    | number x => exact .literal (Or.inl rfl)
    | text s => exact .literal (Or.inr rfl)
    | integer | function | native => cases h
  | .grouping inner, h => by
    have hinner := (inner.binds_write h).mono (Nat.zero_le _) inner.rank_le
    exact .grouping rfl hinner rfl
  | .unary operator right, h => by
    simp only [Expr.neat, Bool.and_eq_true, decide_eq_true_eq] at h
    obtain ⟨⟨hoperator, hrank⟩, hright⟩ := h
    have hsign : operator.kind = .bang ∨ operator.kind = .minus := by
      simpa [unaryKinds] using hoperator
    exact .sign hsign ((right.binds_write hright).mono hrank right.rank_le)
  | .binary left operator right, h => by
    simp only [Expr.neat, Level.joins, Bool.and_eq_true, Option.any_eq_true,
      decide_eq_true_eq] at h
    obtain ⟨⟨⟨l, hlevel, hl, hr⟩, hleft⟩, hright⟩ := h
    obtain ⟨hoperator, hnode⟩ := Level.ofBinary?_spec hlevel
    have hbinds := binds_operation hoperator hl hr (left.binds_write hleft)
      (right.binds_write hright)
    rw [hnode] at hbinds
    simpa [Expr.rank, Expr.write, hlevel] using hbinds
  | .logical left operator right, h => by
    simp only [Expr.neat, Level.joins, Bool.and_eq_true, Option.any_eq_true,
      decide_eq_true_eq] at h
    obtain ⟨⟨⟨l, hlevel, hl, hr⟩, hleft⟩, hright⟩ := h
    obtain ⟨hoperator, hnode⟩ := Level.ofLogical?_spec hlevel
    have hbinds := binds_operation hoperator hl hr (left.binds_write hleft)
      (right.binds_write hright)
    rw [hnode] at hbinds
    simpa [Expr.rank, Expr.write, hlevel] using hbinds
  | .variable name _, h => .name (by simpa [Expr.neat] using h)
  | .assign name value _, h => by
    simp only [Expr.neat, Bool.and_eq_true, beq_iff_eq] at h
    exact .assign h.1 rfl ((value.binds_write h.2).mono (Nat.zero_le _) value.rank_le)
  | .call callee paren arguments, h => by
    simp only [Expr.neat, Bool.and_eq_true, beq_iff_eq, decide_eq_true_eq] at h
    obtain ⟨⟨⟨⟨hrank, hcallee⟩, hparen⟩, hmost⟩, harguments⟩ := h
    have hc := (callee.binds_write hcallee).mono hrank callee.rank_le
    obtain rfl | hall := Expr.derives_writeAll arguments harguments
    · have hcall : Derives .call (callee.write ++ [.mark .leftParen, paren])
          (.call callee paren []) := .callEmpty hc rfl hparen
      simpa [Binds, Expr.rank, Expr.write, Expr.writeAll] using hcall
    · exact .callWith hc rfl hall hmost hparen
  | .alien _, h => by cases h

theorem Expr.derives_writeAll : ∀ es : List RawExpr, Expr.neatAll es = true →
    es = [] ∨ Derives .arguments (Expr.writeAll es) es
  | [], _ => Or.inl rfl
  | e :: rest, h => by
    simp only [Expr.neatAll, Bool.and_eq_true] at h
    have hfirst := (e.binds_write h.1).mono (Nat.zero_le _) e.rank_le
    refine Or.inr ?_
    obtain rfl | hmore := Expr.derives_writeAll rest h.2
    · exact .lastArgument hfirst
    · cases rest with
      | nil => exact .lastArgument hfirst
      | cons e' rest => exact .argument hfirst rfl hmore
end

theorem Expr.derives_write {e : RawExpr} (h : e.neat = true) : Derives .expression e.write e :=
  (e.binds_write h).mono (Nat.zero_le _) e.rank_le

theorem Expr.perhaps_write {e : Option RawExpr} (h : e.all Expr.neat = true) :
    Perhaps (Expr.writeOption e) e := by
  cases e with
  | none => exact .absent
  | some e => exact .present (Expr.derives_write h)

/-! ## Neat statements are read -/

theorem separated_writeNames {name : Token} {names : List Token}
    (h : (name :: names).all (·.kind == .identifier) = true) :
    Separated IsName (writeNames (name :: names)) (name :: names) := by
  induction names generalizing name with
  | nil =>
    simp only [List.all_cons, List.all_nil, Bool.and_true, beq_iff_eq] at h
    exact .last ⟨rfl, h⟩
  | cons name' names ih =>
    rw [List.all_cons, Bool.and_eq_true, beq_iff_eq] at h
    have hmore : Separated IsName ([name] ++ .mark .comma :: writeNames (name' :: names))
        (name :: name' :: names) := .more ⟨rfl, h.1⟩ rfl (ih h.2)
    exact hmore

theorem parameters_writeNames {names : List Token}
    (h : names.all (·.kind == .identifier) = true) (hmost : names.length ≤ mostItems) :
    Parameters (writeNames names) names := by
  cases names with
  | nil => exact .none
  | cons name names => exact .some (separated_writeNames h) hmost

/-- What is written for a statement is read as that statement. -/
structure Stmt.Readback (s : RawStmt) : Prop where
  declaration : Reads .declaration s.write s
  statement : s.declares = false → Reads (.statement s.openEnded) s.write s

theorem Stmt.Readback.of_statement {s : RawStmt} (h : Reads (.statement s.openEnded) s.write s) :
    s.Readback :=
  ⟨.statement h, fun _ => h⟩

mutual
theorem Stmt.readback : ∀ s : RawStmt, s.neat = true → s.Readback
  | .expression e, h => .of_statement (.exprStmt (.expression (Expr.derives_write h) rfl))
  | .print e, h => .of_statement (.print rfl (Expr.derives_write h) rfl)
  | .var name initializer, h => by
    simp only [Stmt.neat, Bool.and_eq_true, beq_iff_eq] at h
    refine ⟨.varDecl ?_, fun hdeclares => by cases hdeclares⟩
    cases initializer with
    | none => exact .plainVar rfl h.1 rfl
    | some e => exact .initializedVar rfl h.1 rfl (Expr.derives_write h.2) rfl
  | .block body, h => .of_statement (.block (.braces rfl (Stmt.reads_writeAll body h) rfl))
  | .branch condition yes none, h => by
    simp only [Stmt.neat, Bool.and_eq_true, Bool.not_eq_true'] at h
    obtain ⟨⟨hcondition, hyes⟩, hneat⟩ := h
    have hread := (yes.readback hneat).statement hyes
    exact .of_statement (.ifThen rfl rfl (Expr.derives_write hcondition) rfl hread)
  | .branch condition yes (some no), h => by
    simp only [Stmt.neat, Bool.and_eq_true, Bool.not_eq_true'] at h
    obtain ⟨⟨⟨⟨⟨hcondition, hyes⟩, hneat⟩, hclosed⟩, hno⟩, hneat'⟩ := h
    have hread := (yes.readback hneat).statement hyes
    have hread' := (no.readback hneat').statement hno
    rw [hclosed] at hread
    exact .of_statement (.ifElse rfl rfl (Expr.derives_write hcondition) rfl hread rfl hread')
  | .loop condition body, h => by
    simp only [Stmt.neat, Bool.and_eq_true, Bool.not_eq_true'] at h
    obtain ⟨⟨hcondition, hbody⟩, hneat⟩ := h
    have hread := (body.readback hneat).statement hbody
    exact .of_statement (.whileLoop rfl rfl (Expr.derives_write hcondition) rfl hread)
  | .function name parameters body, h => by
    simp only [Stmt.neat, Bool.and_eq_true, beq_iff_eq, decide_eq_true_eq] at h
    obtain ⟨⟨⟨hname, hparameters⟩, hmost⟩, hbody⟩ := h
    refine ⟨.function rfl hname rfl (parameters_writeNames hparameters hmost) rfl
      (.braces rfl (Stmt.reads_writeAll body hbody) rfl), ?_⟩
    intro hdeclares
    cases hdeclares
  | .giveBack keyword value, h => by
    simp only [Stmt.neat, Bool.and_eq_true, beq_iff_eq] at h
    exact .of_statement (.giveBack h.1 (Expr.perhaps_write h.2) rfl)
  | .alien _, h => by cases h

theorem Stmt.reads_writeAll : ∀ ss : List RawStmt, Stmt.neatAll ss = true →
    Reads .declarations (Stmt.writeAll ss) ss
  | [], _ => .noDeclaration
  | s :: rest, h => by
    simp only [Stmt.neatAll, Bool.and_eq_true] at h
    exact .declarations (s.readback h.1).declaration (Stmt.reads_writeAll rest h.2)
end

/-! ## What is read is written as it was -/

/-- Two rows of tokens that say the same. -/
def SameGist (ts us : List Token) : Prop := ts.map Token.gist = us.map Token.gist

theorem SameGist.append {ts ts' us us' : List Token} (h : SameGist ts us) (h' : SameGist ts' us') :
    SameGist (ts ++ ts') (us ++ us') := by
  unfold SameGist at *
  rw [List.map_append, List.map_append, h, h']

theorem sameGist_nil : SameGist [] [] := rfl

theorem SameGist.cons {t u : Token} {ts us : List Token} (ht : t.gist = u.gist)
    (h : SameGist ts us) : SameGist (t :: ts) (u :: us) := by
  unfold SameGist at *
  rw [List.map_cons, List.map_cons, ht, h]

theorem SameGist.kept {t : Token} {ts us : List Token} (h : SameGist ts us) :
    SameGist (t :: ts) (t :: us) :=
  .cons rfl h

/-- A token written anew stands for any token of its kind. -/
theorem SameGist.marked {u : Token} {k : Kind} {ts us : List Token} (hu : u.kind = k)
    (hk : k.isSpelled = true) (h : SameGist ts us) : SameGist (.mark k :: ts) (u :: us) := by
  refine .cons ?_ h
  subst hu
  unfold Token.gist Token.mark
  generalize u.kind = k at hk
  cases k <;> first | rfl | cases hk

theorem gist_written {t : Token} (h : t.kind = .number ∨ t.kind = .string)
    (hcarries : t.carries = true) : t.value.written.gist = t.gist := by
  rcases h with hkind | hkind
  · simp only [Token.carries, hkind] at hcarries
    split at hcarries <;> simp_all [Token.gist, Token.value, Value.written]
  · simp only [Token.carries, hkind] at hcarries
    split at hcarries <;> simp_all [Token.gist, Token.value, Value.written]

theorem Expr.writeAll_cons (e : RawExpr) {es : List RawExpr} (h : es ≠ []) :
    Expr.writeAll (e :: es) = e.write ++ .mark .comma :: Expr.writeAll es := by
  cases es with
  | nil => exact absurd rfl h
  | cons e' rest => rw [Expr.writeAll]

namespace Grammar

theorem Derives.arguments_ne_nil {ts : List Token} {es : List RawExpr}
    (h : Derives .arguments ts es) : es ≠ [] := by
  cases h <;> exact List.cons_ne_nil _ _

/-- What is written for a phrase says the same as the tokens it was read from. -/
def Restores : (s : Symbol) → List Token → s.Tree → Prop
  | .arguments, ts, es => SameGist (Expr.writeAll es) ts
  | .expression, ts, e | .ladder _, ts, e | .unary, ts, e | .call, ts, e | .primary, ts, e =>
    SameGist (Expr.write e) ts

theorem restores_node {l : Level} {operator : Token} {e e' : RawExpr} :
    (l.node e operator e').write = e.write ++ operator :: e'.write := by
  cases l <;> rfl

theorem Derives.restores {s : Symbol} {ts : List Token} {t : s.Tree} (h : Derives s ts t)
    (hcarries : ∀ t ∈ ts, t.carries = true) : Restores s ts t := by
  induction h with
  | assign _ hequals _ ih =>
    simp only [List.forall_mem_cons] at hcarries
    exact .kept (.marked hequals rfl (ih hcarries.2.2))
  | logicOr _ ih | operand _ ih | tightest _ ih | unsigned _ ih | uncalled _ ih => exact ih hcarries
  | operation _ _ _ ih ih' =>
    simp only [List.forall_mem_append, List.forall_mem_cons] at hcarries
    show SameGist _ _
    rw [restores_node]
    exact (ih hcarries.1).append (.kept (ih' hcarries.2.2))
  | sign _ _ ih =>
    simp only [List.forall_mem_cons] at hcarries
    exact .kept (ih hcarries.2)
  | @callEmpty opening closing ts e _ hopening _ ih =>
    simp only [List.forall_mem_append] at hcarries
    have hparens : SameGist [.mark .leftParen, closing] [opening, closing] :=
      .marked hopening rfl (.kept sameGist_nil)
    simpa [Restores, Expr.write, Expr.writeAll] using (ih hcarries.1).append hparens
  | callWith _ hopening _ _ hclosing ih ih' =>
    simp only [List.forall_mem_append, List.forall_mem_cons] at hcarries
    exact ((ih hcarries.1.1).append (.marked hopening rfl
      (ih' hcarries.1.2.2))).append (.kept sameGist_nil)
  | lastArgument _ ih => exact ih hcarries
  | argument _ hcomma hmore ih ih' =>
    simp only [List.forall_mem_append, List.forall_mem_cons] at hcarries
    show SameGist _ _
    rw [Expr.writeAll_cons _ hmore.arguments_ne_nil]
    exact (ih hcarries.1).append (.marked hcomma rfl (ih' hcarries.2.2))
  | falseWord hk | trueWord hk | nilWord hk => exact .marked hk rfl sameGist_nil
  | literal hk => exact .cons (gist_written hk (by simpa using hcarries)) sameGist_nil
  | name hk => exact .kept sameGist_nil
  | grouping hopening _ hclosing ih =>
    simp only [List.cons_append, List.forall_mem_append, List.forall_mem_cons] at hcarries
    exact .marked hopening rfl
      ((ih hcarries.2.1).append (.marked hclosing rfl sameGist_nil))

theorem Perhaps.restores {ts : List Token} {e : Option RawExpr} (h : Perhaps ts e)
    (hcarries : ∀ t ∈ ts, t.carries = true) : SameGist (Expr.writeOption e) ts := by
  cases h with
  | absent => exact sameGist_nil
  | present h => exact h.restores hcarries

theorem Separated.restores {ts names : List Token} (h : Separated IsName ts names) :
    SameGist (writeNames names) ts := by
  induction h with
  | last h =>
    obtain ⟨rfl, -⟩ := h
    exact .kept sameGist_nil
  | more h hcomma rest ih =>
    obtain ⟨rfl, -⟩ := h
    cases rest with
    | last | more => exact .kept (.marked hcomma rfl ih)

theorem Parameters.restores {ts names : List Token} (h : Parameters ts names) :
    SameGist (writeNames names) ts := by
  cases h with
  | none => exact sameGist_nil
  | some h => exact h.restores

def RestoresClause : (p : Clause) → List Token → p.Tree → Prop
  | .declarations, ts, ss => SameGist (Stmt.writeAll ss) ts
  | .block, ts, ss => SameGist (.mark .leftBrace :: Stmt.writeAll ss ++ [.mark .rightBrace]) ts
  | .initializer, _, _ => True
  | .declaration, ts, s | .varDecl, ts, s | .statement _, ts, s | .exprStmt, ts, s =>
    SameGist (Stmt.write s) ts

/-- A `for` is the one word that no tree tells of: it is read as the loop it stands for. -/
theorem Reads.restores {p : Clause} {ts : List Token} {t : p.Tree} (h : Reads p ts t)
    (hcarries : ∀ t ∈ ts, t.carries = true) (hfor : ∀ t ∈ ts, t.kind ≠ .keyword .forWord) :
    RestoresClause p ts t := by
  induction h with
  | noDeclaration => exact sameGist_nil
  | declarations _ _ ih ih' =>
    rw [List.forall_mem_append] at hcarries hfor
    exact (ih hcarries.1 hfor.1).append (ih' hcarries.2 hfor.2)
  | function hword _ hopening hparameters hclosing _ ih =>
    simp only [List.cons_append, List.forall_mem_append, List.forall_mem_cons] at hcarries hfor
    exact .marked hword rfl (.kept (.marked hopening rfl
      (hparameters.restores.append (.marked hclosing rfl
        (ih hcarries.2.2.2.2.2 hfor.2.2.2.2.2)))))
  | varDecl _ ih | statement _ ih | exprStmt _ ih | block _ ih => exact ih hcarries hfor
  | plainVar hword _ hsemicolon =>
    exact .marked hword rfl (.kept
      (.marked hsemicolon rfl sameGist_nil))
  | initializedVar hword _ hequals value hsemicolon =>
    simp only [List.cons_append, List.forall_mem_append, List.forall_mem_cons] at hcarries
    exact .marked hword rfl (.kept (.marked hequals rfl
      ((value.restores hcarries.2.2.2.1).append
        (.marked hsemicolon rfl sameGist_nil))))
  | expression value hsemicolon =>
    rw [List.forall_mem_append] at hcarries
    exact (value.restores hcarries.1).append
      (.marked hsemicolon rfl sameGist_nil)
  | noInitializer | varInitializer | exprInitializer => trivial
  | forLoop hword => exact absurd hword (hfor _ (by simp))
  | ifThen hword hopening condition hclosing _ ih =>
    simp only [List.cons_append, List.forall_mem_append, List.forall_mem_cons] at hcarries hfor
    exact .marked hword rfl (.marked hopening rfl
      ((condition.restores hcarries.2.2.1).append (.marked hclosing rfl
        (ih hcarries.2.2.2.2 hfor.2.2.2.2))))
  | ifElse hword hopening condition hclosing _ hother _ ih ih' =>
    simp only [List.cons_append, List.forall_mem_append, List.forall_mem_cons] at hcarries hfor
    have hthen := (condition.restores hcarries.2.2.1.1).append
      (.marked hclosing rfl (ih hcarries.2.2.1.2.2 hfor.2.2.1.2.2))
    have helse := SameGist.marked hother rfl (ih' hcarries.2.2.2.2 hfor.2.2.2.2)
    exact .marked hword rfl (.marked hopening rfl (hthen.append helse))
  | print hword value hsemicolon =>
    simp only [List.cons_append, List.forall_mem_append, List.forall_mem_cons] at hcarries
    exact .marked hword rfl ((value.restores hcarries.2.1).append
      (.marked hsemicolon rfl sameGist_nil))
  | giveBack hword value hsemicolon =>
    simp only [List.cons_append, List.forall_mem_append, List.forall_mem_cons] at hcarries
    exact .kept ((value.restores hcarries.2.1).append
      (.marked hsemicolon rfl sameGist_nil))
  | whileLoop hword hopening condition hclosing _ ih =>
    simp only [List.cons_append, List.forall_mem_append, List.forall_mem_cons] at hcarries hfor
    exact .marked hword rfl (.marked hopening rfl
      ((condition.restores hcarries.2.2.1).append (.marked hclosing rfl
        (ih hcarries.2.2.2.2 hfor.2.2.2.2))))
  | braces hopening _ hclosing ih =>
    simp only [List.cons_append, List.forall_mem_append, List.forall_mem_cons] at hcarries hfor
    exact .marked hopening rfl ((ih hcarries.2.1 hfor.2.1).append
      (.marked hclosing rfl sameGist_nil))

end Grammar

/-! ## The round trip -/

/-- Quiet reading of tokens that have a reading gives that reading and nothing else. -/
theorem parse_of_reads {limit : Nat} {ts : List Token} {ss : List RawStmt}
    (hreads : Reads .declarations ts ss)
    (h : ∀ c ∈ (parse limit ts).complaints, c.problem ≠ .tooDeep) :
    parse limit ts = ⟨ss, []⟩ := by
  obtain ⟨ss', hok, heq⟩ | ⟨-, c, hc, hdeep⟩ := Parser.echoes_program ts.length limit ts
  · obtain htaken | ⟨hdeep, -⟩ := Parser.takes_declarations limit hreads
    · unfold parse
      rw [heq, htaken]
      rfl
    · rw [hok] at hdeep
      cases hdeep
  · exact absurd hdeep (h c hc)

/-- The tokens of a source carry what their kinds call for. -/
theorem Piece.Stands.carries {p : Piece} {rest : List Char} {line : Int} {t : Token}
    (h : p.Stands rest) (ht : p.token? line = some t) : t.carries = true := by
  cases h with
  | quoted | whole | fraction =>
    cases ht
    rfl
  | @word c tail =>
    simp only [Piece.token?] at ht
    split at ht <;> cases ht <;> rfl
  | @single c kind _ hkind =>
    cases ht
    unfold operator? at hkind
    split at hkind <;> cases hkind <;> rfl
  | @double c kind _ hkind =>
    cases ht
    unfold operatorWithEqual? at hkind
    split at hkind <;> cases hkind <;> rfl
  | newline | blanks | comment | unclosed | stray => cases ht

theorem mem_of_mem_placed {line : Int} {ps : List Piece} {q : Piece × Int}
    (h : q ∈ (placed line ps).1) : q.1 ∈ ps := by
  induction ps generalizing line with
  | nil => cases h
  | cons p ps ih =>
    rcases List.mem_cons.1 h with rfl | h
    · exact List.mem_cons_self
    · exact List.mem_cons_of_mem _ (ih h)

theorem lex_carries {source : String} {t : Token} (ht : t ∈ (lex source).tokens) :
    t.carries = true := by
  obtain ⟨q, hq, htoken⟩ := List.mem_filterMap.1 ht
  obtain ⟨rest, hstands⟩ := (tiling_pieces _).stands q.1 (mem_of_mem_placed hq)
  exact hstands.carries htoken

/-- Trees and tokens tell the same. A neat program, written out and read, comes back as it was,
unless it nests too deeply; and tokens without a `for` that are read without a complaint come
back from what was read, if each literal carries its value. Those of a source do. -/
theorem written_program_reads_back (limit : Nat) :
    (∀ ss : List RawStmt, Stmt.neatAll ss = true →
      (∀ c ∈ (parse limit (Stmt.writeAll ss)).complaints, c.problem ≠ .tooDeep) →
      parse limit (Stmt.writeAll ss) = ⟨ss, []⟩) ∧
    (∀ tokens : List Token, (∀ t ∈ tokens, t.carries = true) →
      (∀ t ∈ tokens, t.kind ≠ .keyword .forWord) → (parse limit tokens).complaints = [] →
      (Stmt.writeAll (parse limit tokens).statements).map Token.gist = tokens.map Token.gist) ∧
    ∀ source : String, ∀ t ∈ (lex source).tokens, t.carries = true := by
  refine ⟨?_, ?_, fun source t ht => lex_carries ht⟩
  · intro ss hneat hdeep
    exact parse_of_reads (Stmt.reads_writeAll ss hneat) hdeep
  · intro tokens hcarries hfor hquiet
    obtain ⟨rest, hgives⟩ := Parser.complaints_eq_nil_iff.1 hquiet
    exact (Parser.gives_declarations hgives).restores hcarries hfor

/-- The program `if (a) if (b) { } else -f(a) + b * (a or b);`. -/
def mixedProgram : List RawStmt :=
  let a : Token := ⟨.identifier, "a", none, 3⟩
  let b : Token := ⟨.identifier, "b", none, 4⟩
  let f : Token := ⟨.identifier, "f", none, 5⟩
  let negated : RawExpr := .unary ⟨.minus, "-", none, 5⟩
    (.call (.variable f ()) ⟨.rightParen, ")", none, 5⟩ [.variable a ()])
  let either : RawExpr :=
    .grouping (.logical (.variable a ()) ⟨.keyword .orWord, "or", none, 5⟩ (.variable b ()))
  let product : RawExpr := .binary (.variable b ()) ⟨.star, "*", none, 5⟩ either
  [.branch (.variable a ()) (.branch (.variable b ()) (.block [])
    (some (.expression (.binary negated ⟨.plus, "+", none, 5⟩ product)))) none]

theorem mixedProgram_reads_back :
    Stmt.neatAll mixedProgram = true ∧
      (∀ c ∈ (parse nestingLimit (Stmt.writeAll mixedProgram)).complaints,
        c.problem ≠ .tooDeep) ∧
      parse nestingLimit (Stmt.writeAll mixedProgram) = ⟨mixedProgram, []⟩ := by
  have hneat : Stmt.neatAll mixedProgram = true := by decide +kernel
  have hdeep : ∀ c ∈ (parse nestingLimit (Stmt.writeAll mixedProgram)).complaints,
      c.problem ≠ .tooDeep := by decide +kernel
  exact ⟨hneat, hdeep, (written_program_reads_back nestingLimit).1 mixedProgram hneat hdeep⟩

/-- The literal `nil` in as many brackets as told. -/
def bracketed : Nat → RawExpr
  | 0 => .literal .nil
  | n + 1 => .grouping (bracketed n)

/-- A number token without a value, and a semicolon. -/
def blankNumber : List Token := [⟨.number, "1", none, 1⟩, ⟨.semicolon, ";", none, 1⟩]

/-- A neat program may nest too deeply to be read, and a token that does not carry its value is
not told by the tree. -/
theorem deep_brackets_not_read_back :
    (Stmt.neatAll [.expression (bracketed 100)] = true ∧
      parse nestingLimit (Stmt.writeAll [.expression (bracketed 100)]) ≠
        ⟨[.expression (bracketed 100)], []⟩) ∧
    (parse nestingLimit blankNumber).complaints = [] ∧
      (Stmt.writeAll (parse nestingLimit blankNumber).statements).map Token.gist ≠
        blankNumber.map Token.gist := by
  refine ⟨⟨by decide +kernel, ?_⟩, by decide +kernel, by decide +kernel⟩
  intro h
  have hquiet :
      (parse nestingLimit (Stmt.writeAll [.expression (bracketed 100)])).complaints ≠ [] := by
    decide +kernel
  exact hquiet (congrArg Program.complaints h)

end Scriptling
