-- Programs further down. The line of a token is something that a program carries along and reports.
-- Further down in a text, a program does the same and reports its errors further down, while the
-- functions from before report theirs where they stand. To tell the two apart, a program is run
-- with marked tokens, which stand on lines that no other token has.
import Scriptling.Proofs.Run.Rejected
import Scriptling.Proofs.Source.Joined

namespace Scriptling

variable {T : Token → Token → Prop} {base base' : List Report} {w w' u : World} {limits : Limits}
  {ts ts' : List Token}

/-! ## Programs from tokens -/

/-- Execute the statements of a source, in turn. -/
def Eval.topLevel (limits : Limits) (ss : List (Stmt UseId)) : Eval Unit :=
  Eval.inTurn (Eval.statement limits.patience limits.depth globalChain) ss

theorem Eval.topLevel_append (limits : Limits) (ss ss' : List (Stmt UseId)) :
    Eval.topLevel limits (ss ++ ss') = (do
      Eval.topLevel limits ss
      Eval.topLevel limits ss') :=
  List.forM_append

theorem inStep_topLevel (hT : Lookalike T) (limits : Limits) (hw : Like T base base' w w')
    {ss ss' : List (Stmt UseId)} (hss : List.Forall₂ (LikeStmt T (SameUse w w')) ss ss') :
    InStep T base base' w w' (Eval.topLevel limits ss) (Eval.topLevel limits ss') :=
  inStep_inTurn hT (executesInStep hT base base' limits) hw hss

/-- Execute a program that is given by its tokens. -/
def World.runTokens (w : World) (limits : Limits) (ts : List Token) : Ending × World :=
  let (ss, v) := w.prepare limits.depth (parse (limits.depth - 5) ts).statements
  Runs.request (Runs.reporting Eval.reportRuntime (Eval.topLevel limits ss)) v

/-- An accepted source is executed as the program that its tokens are. -/
theorem World.Accepts.runTokens {source : String} (h : w.Accepts limits source) :
    w.run limits source = w.runTokens limits (lex source).tokens := by
  rw [World.run_eq]
  unfold Runs.request
  rw [Eval.answer, h.run, Eval.program_eq]
  rfl

/-- Programs of related tokens are executed in step. -/
theorem Like.runTokens (hT : Lookalike T) (hw : Like T base base' w w')
    (hts : List.Forall₂ T ts ts') (h : (parse (limits.depth - 5) ts).complaints = []) :
    (w.runTokens limits ts).1 = (w'.runTokens limits ts').1 ∧
      Like T base base' (w.runTokens limits ts).2 (w'.runTokens limits ts').2 := by
  obtain ⟨-, hraw⟩ := Parser.parse_like hT hts h
  obtain ⟨hss, -⟩ := prepare_like hT hw.fresh hw.fresh' limits.depth hraw
  exact (inStep_topLevel hT limits ((hw.prepareLeft _ _).prepareRight _ _) hss).reporting.request

/-! ## Tokens of a world -/

/-- The tokens of code: those of a function, or those of all texts that a native may run. -/
def Code.Holds : Code → Token → Prop
  | .closure ps ss _, t => t ∈ ps ∨ ∃ s ∈ ss, t ∈ s.tokens
  | .host act, t => ∃ arguments text, (act arguments).MayRun text ∧ t ∈ (lex text).tokens

/-- A token of the code that is known in a world. -/
def World.Holds (w : World) (t : Token) : Prop := ∃ c ∈ w.code, c.Holds t

/-- In a world that is like itself, the tokens that it holds are related to themselves. -/
theorem Like.holds (hw : Like T base base' w w) {t : Token} (ht : w.Holds t) : T t t := by
  obtain ⟨c, hc, ht⟩ := ht
  have hlike : LikeCode T (SameUse w w) c c :=
    List.forall₂_same.1 hw.code c (Array.mem_toList_iff.2 hc)
  cases hlike with
  | closure parameters body =>
    obtain ht | ⟨s, hs, ht⟩ := ht
    · exact List.forall₂_same.1 parameters t ht
    · exact List.forall₂_same.1 (List.forall₂_same.1 body s hs).tokens t ht
  | host texts =>
    obtain ⟨arguments, text, htext, ht⟩ := ht
    exact texts arguments text htext t ht

/-- Code alike is still alike if fewer tokens are related, but those that it holds. -/
theorem LikeCode.narrow {U : UseId → UseId → Prop} {c c' : Code} (h : LikeCode Eq U c c')
    (hold : ∀ t, c.Holds t → T t t) : LikeCode T U c c' := by
  cases h with
  | closure parameters body =>
    obtain rfl := List.forall₂_eq_eq_eq ▸ parameters
    refine .closure (List.forall₂_same.2 fun t ht => hold t (Or.inl ht)) ?_
    refine forall₂_of_getElem? body.length_eq fun i s s' hs hs' => ?_
    have hlike := getElem?_of_forall₂ body hs hs'
    refine hlike.mono ?_ fun _ _ hl => hl
    rintro t _ ht' rfl
    have htokens : s.tokens = s'.tokens := List.forall₂_eq_eq_eq ▸ hlike.tokens
    exact hold t (Or.inr ⟨s, List.mem_of_getElem? hs, htokens ▸ ht'⟩)
  | host texts =>
    exact .host fun arguments text htext t ht => hold t ⟨arguments, text, htext, ht⟩

theorem Like.narrow (hw : Like Eq base base' w w') (hold : ∀ t, w.Holds t → T t t) :
    Like T w.reports.toList w'.reports.toList w w' := by
  refine ⟨hw.heap, hw.printed, hw.clock, ?_, ?_, hw.fresh, hw.fresh'⟩
  · refine forall₂_of_getElem? hw.code.length_eq fun i c c' hc hc' => ?_
    have hmem : c ∈ w.code := Array.mem_toList_iff.1 (List.mem_of_getElem? hc)
    exact (getElem?_of_forall₂ hw.code hc hc').narrow fun t ht => hold t ⟨c, hmem, ht⟩
  · exact ⟨[], [], (List.append_nil _).symm, (List.append_nil _).symm, .nil⟩

/-- The same token, on a line that is not negative. -/
def Counted (t t' : Token) : Prop := t = t' ∧ 0 ≤ t.line

theorem lookalike_counted : Lookalike Counted where
  kind := fun ⟨h, _⟩ => congrArg Token.kind h
  lexeme := fun ⟨h, _⟩ => congrArg Token.lexeme h
  literal := fun ⟨h, _⟩ => congrArg Token.literal h
  ending := fun ⟨h, hline⟩ => ⟨congrArg (fun t => Token.endAt t.line) h, hline⟩
  nowhere := ⟨rfl, Int.le_refl 0⟩

theorem counted_of_lex {text : String} : ∀ t ∈ (lex text).tokens, Counted t t :=
  fun t ht => ⟨rfl, Int.le_of_lt (lex_line_pos t ht)⟩

/-! ## Other lines -/

/-- The line where a token belongs, if the negative lines stand for those that many lines further
down. -/
def settledLine (lines : Nat) (line : Int) : Int := if line < 0 then lines - line else line

theorem settledLine_neg {line : Int} (h : 0 < line) (lines : Nat) :
    settledLine lines (-line) = line + lines := by
  unfold settledLine
  rw [if_pos (by omega)]
  omega

theorem settledLine_of_nonneg {line : Int} (h : 0 ≤ line) (lines : Nat) :
    settledLine lines line = line := if_neg (Int.not_lt.2 h)

namespace Token

/-- A token on another line, as `f` says. -/
def moved (f : Int → Int) (t : Token) : Token := { t with line := f t.line }

/-- A token on a line that no token of a source has. -/
def marked : Token → Token := moved Neg.neg

/-- A token where it belongs, if the marked ones stand that many lines further down. -/
def settled (lines : Nat) : Token → Token := moved (settledLine lines)

theorem settled_marked {t : Token} (h : 0 < t.line) (lines : Nat) :
    t.marked.settled lines = t.down lines :=
  congrArg (fun line => { t with line := line }) (settledLine_neg h lines)

theorem settled_of_nonneg {t : Token} (h : 0 ≤ t.line) (lines : Nat) : t.settled lines = t :=
  congrArg (fun line => { t with line := line }) (settledLine_of_nonneg h lines)

theorem map_down_zero (ts : List Token) : ts.map (down 0) = ts := by
  have hdown : ∀ t : Token, t.down 0 = t := fun t =>
    congrArg (fun line => { t with line := line }) (Int.add_zero t.line)
  rw [List.map_congr_left fun t _ => hdown t, List.map_id']

end Token

/-- To move tokens to other lines leaves them alike. -/
theorem lookalike_moved {f : Int → Int} (h : f 0 = 0) : Lookalike fun t t' => t' = t.moved f where
  kind := by
    rintro t _ rfl
    rfl
  lexeme := by
    rintro t _ rfl
    rfl
  literal := by
    rintro t _ rfl
    rfl
  ending := by
    rintro t _ rfl
    rfl
  nowhere := by rw [Token.moved, Token.endAt, h]

theorem forall₂_moved (f : Int → Int) (ts : List Token) :
    List.Forall₂ (fun t t' => t' = t.moved f) ts (ts.map (Token.moved f)) :=
  List.forall₂_map_right_iff.2 (List.forall₂_same.2 fun _ _ => rfl)

/-! ## Marked programs -/

/-- A token that can be met where the tokens `ts` are executed, marked, in the world `u`: one that
the world holds, or a marked one, or what stands for the line of one. -/
inductive Met (u : World) (ts : List Token) : Token → Prop
  | held {t : Token} (old : u.Holds t) : Met u ts t
  | marked {t : Token} (new : t ∈ ts) : Met u ts t.marked
  | nowhere : Met u ts (.endAt 0)
  | ending {t : Token} (met : Met u ts t) : Met u ts (.endAt t.line)

/-- A token that is met, and where it belongs. -/
def Settles (u : World) (ts : List Token) (lines : Nat) (t t' : Token) : Prop :=
  Met u ts t ∧ t' = t.settled lines

theorem lookalike_settles (u : World) (ts : List Token) (lines : Nat) :
    Lookalike (Settles u ts lines) := by
  have h := lookalike_moved (f := settledLine lines) rfl
  exact ⟨fun ht => h.kind ht.2, fun ht => h.lexeme ht.2, fun ht => h.literal ht.2,
    fun ht => ⟨.ending ht.1, h.ending ht.2⟩, ⟨.nowhere, h.nowhere⟩⟩

namespace Report

/-- An error that is met at a token that is. -/
def Met (u : World) (ts : List Token) : Report → Prop
  | .static _ => True
  | .runtime e => Scriptling.Met u ts e.token

/-- An error where it belongs, if the marked tokens stand further down. -/
def settled (lines : Nat) : Report → Report
  | .static e => .static e
  | .runtime e => .runtime { e with token := e.token.settled lines }

end Report

theorem settled_of_likeReports {lines : Nat} {told told' : List Report}
    (h : List.Forall₂ (LikeReport (Settles u ts lines)) told told') :
    (∀ r ∈ told, r.Met u ts) ∧ told' = told.map (Report.settled lines) := by
  induction h with
  | nil => exact ⟨fun _ hr => (by cases hr), rfl⟩
  | cons hr _ ih =>
    obtain ⟨hmet, rfl⟩ := ih
    cases hr with
    | static => exact ⟨List.forall_mem_cons.2 ⟨trivial, hmet⟩, rfl⟩
    | runtime token =>
      obtain ⟨hhead, rfl⟩ := token
      exact ⟨List.forall_mem_cons.2 ⟨hhead, hmet⟩, rfl⟩

/-- A marked program does what it does further down, and it reports where each error comes from:
settled, its reports are those made further down. -/
theorem marked_run (hu : Like Eq base base' u u) (hold : ∀ t, u.Holds t → 0 ≤ t.line)
    (hts : ∀ t ∈ ts, 0 < t.line) (h : (parse (limits.depth - 5) ts).complaints = []) :
    let marked := u.runTokens limits (ts.map Token.marked)
    ∃ told, marked.2.reports.toList = u.reports.toList ++ told ∧ (∀ r ∈ told, r.Met u ts) ∧
      ∀ lines, let lowered := u.runTokens limits (ts.map (Token.down lines))
        lowered.1 = marked.1 ∧ lowered.2.printed = marked.2.printed ∧
          lowered.2.heap = marked.2.heap ∧
          lowered.2.reports.toList = u.reports.toList ++ told.map (Report.settled lines) := by
  intro marked
  have hquiet : (parse (limits.depth - 5) (ts.map Token.marked)).complaints = [] :=
    (Parser.parse_like (lookalike_moved Int.neg_zero) (forall₂_moved Neg.neg ts) h).1
  have hlike : ∀ lines, marked.1 = (u.runTokens limits (ts.map (Token.down lines))).1 ∧
      Like (Settles u ts lines) u.reports.toList u.reports.toList marked.2
        (u.runTokens limits (ts.map (Token.down lines))).2 := by
    intro lines
    have hmarked : List.Forall₂ (Settles u ts lines) (ts.map Token.marked)
        (ts.map (Token.down lines)) := by
      refine List.forall₂_map_left_iff.2 (List.forall₂_map_right_iff.2 ?_)
      refine List.forall₂_same.2 fun t ht => ⟨.marked ht, ?_⟩
      exact (Token.settled_marked (hts t ht) lines).symm
    have hself : Like (Settles u ts lines) u.reports.toList u.reports.toList u u :=
      hu.narrow fun t ht => ⟨.held ht, (Token.settled_of_nonneg (hold t ht) lines).symm⟩
    exact hself.runTokens (lookalike_settles u ts lines) hmarked hquiet
  obtain ⟨told, _, htold, -, hfirst⟩ := (hlike 0).2.reports
  refine ⟨told, htold, (settled_of_likeReports hfirst).1, fun lines => ?_⟩
  obtain ⟨hending, hlowered⟩ := hlike lines
  obtain ⟨new, new', hnew, hnew', hreports⟩ := hlowered.reports
  obtain rfl : told = new := List.append_cancel_left (htold.symm.trans hnew)
  obtain ⟨-, rfl⟩ := settled_of_likeReports hreports
  exact ⟨hending.symm, hlowered.printed.symm, hlowered.heap.symm, hnew'⟩

end Scriptling
