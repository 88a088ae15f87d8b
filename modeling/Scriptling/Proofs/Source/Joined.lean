-- Two sources, one below the other. A line end cuts no piece short and makes none longer, except a
-- string that was not closed; so where the first source closes its strings, the tokens and the
-- errors of the whole are those of the first and, further down, those of the second.
import Scriptling.Proofs.Source.Lines

namespace Scriptling

/-! ## Pieces before a line end -/

theorem Piece.Ends.beforeLineEnd {among : Char → Bool} {rest : List Char} (h : Ends among rest)
    (hnewline : among '\n' = false) (below : List Char) : Ends among (rest ++ '\n' :: below) := by
  intro c hc
  cases rest with
  | nil =>
    cases hc
    exact hnewline
  | cons d rest => exact h c hc

/-- A piece still is as long as its kind allows, if there are further lines. -/
theorem Piece.Stands.beforeLineEnd {p : Piece} {rest : List Char} (h : p.Stands rest)
    (hclosed : ∀ body, p ≠ .unclosed body) (below : List Char) :
    p.Stands (rest ++ '\n' :: below) := by
  cases h with
  | newline => exact .newline
  | blanks hne hall hends => exact .blanks hne hall (hends.beforeLineEnd rfl below)
  | comment hnone hends => exact .comment hnone (hends.beforeLineEnd (by decide) below)
  | quoted hnone => exact .quoted hnone
  | unclosed hnone => exact absurd rfl (hclosed _)
  | whole hne hall hends hpoint =>
    refine .whole hne hall (hends.beforeLineEnd rfl below) ?_
    intro after hafter
    cases rest with
    | nil => simp at hafter
    | cons d rest =>
      simp only [List.cons_append, List.cons.injEq] at hafter
      obtain ⟨rfl, rfl⟩ := hafter
      exact (hpoint rest rfl).beforeLineEnd rfl below
  | fraction hne hall hne' hall' hends =>
    exact .fraction hne hall hne' hall' (hends.beforeLineEnd rfl below)
  | word hstarts hall hends => exact .word hstarts hall (hends.beforeLineEnd (by decide) below)
  | single hkind hdouble =>
    refine .single hkind fun hhead => ?_
    cases rest with
    | nil => simp at hhead
    | cons d rest => exact hdouble hhead
  | double hkind => exact .double hkind
  | stray h₁ h₂ h₃ h₄ h₅ h₆ h₇ => exact .stray h₁ h₂ h₃ h₄ h₅ h₆ h₇

/-- A tiling of two texts with a line end between them. -/
theorem Tiling.joined {cs cs' : List Char} {ps ps' : List Piece} (h : Tiling cs ps)
    (hclosed : ∀ body, .unclosed body ∉ ps) (h' : Tiling cs' ps') :
    Tiling (cs ++ '\n' :: cs') (ps ++ .newline :: ps') := by
  induction h with
  | nil => exact .cons .newline h'
  | @cons p rest ps hp _ ih =>
    have hfirst :=
      hp.beforeLineEnd (fun body hbody => hclosed body (hbody ▸ List.mem_cons_self)) cs'
    have hrest := ih fun body hbody => hclosed body (List.mem_cons_of_mem _ hbody)
    rw [List.append_assoc]
    exact .cons hfirst hrest

/-! ## Lines further down -/

/-- A token, some lines further down. -/
def Token.down (lines : Nat) (t : Token) : Token := { t with line := t.line + lines }

theorem Piece.token?_down (p : Piece) (line : Int) (lines : Nat) :
    p.token? (line + lines) = (p.token? line).map (Token.down lines) := by
  cases p with
  | word text =>
    simp only [token?]
    cases Keyword.ofText? (String.ofList (Piece.word text).text) <;> rfl
  | _ => rfl

/-- An error, some lines further down. -/
def StaticError.down (lines : Nat) (e : StaticError) : StaticError :=
  { e with line := e.line + lines }

theorem Piece.error?_down (p : Piece) (line : Int) (lines : Nat) :
    p.error? (line + lines) = (p.error? line).map (StaticError.down lines) := by
  cases p <;> rfl

/-- The counter runs on where pieces follow others. -/
theorem placed_append (line : Int) (ps qs : List Piece) :
    placed line (ps ++ qs) =
      ((placed line ps).1 ++ (placed (placed line ps).2 qs).1,
        (placed (placed line ps).2 qs).2) := by
  induction ps generalizing line with
  | nil => rfl
  | cons p ps ih =>
    rw [List.cons_append, placed_cons, ih, placed_cons]
    rfl

theorem Piece.lineBehind_down (p : Piece) (line : Int) (lines : Nat) :
    p.lineBehind (line + lines) = p.lineBehind line + lines := by
  cases p <;> simp only [lineBehind] <;> omega

/-- Further down the counter shows as many lines more, behind each piece and at last. -/
theorem placed_down (line : Int) (lines : Nat) (ps : List Piece) :
    placed (line + lines) ps =
      ((placed line ps).1.map fun q => (q.1, q.2 + (lines : Int)), (placed line ps).2 + lines) := by
  induction ps generalizing line with
  | nil => rfl
  | cons p ps ih =>
    rw [placed_cons, p.lineBehind_down, ih, placed_cons]
    rfl

/-- What pieces become further down is the same, further down. -/
theorem filterMap_placed_down {α : Type} {become : Piece → Int → Option α} {down : α → α}
    {lines : Nat} (h : ∀ p line, become p (line + lines) = (become p line).map down)
    (ps : List Piece) (line : Int) :
    ((placed (line + lines) ps).1.filterMap fun q => become q.1 q.2) =
      ((placed line ps).1.filterMap fun q => become q.1 q.2).map down := by
  rw [placed_down, List.filterMap_map, List.map_filterMap]
  exact List.filterMap_congr fun q _ => h q.1 q.2

/-! ## The tokens of two sources -/

/-- Two sources, one below the other. -/
def joined (above below : String) : String := above ++ "\n" ++ below

/-- How many lines further down a source stands if it is put below another one. -/
def linesAbove (source : String) : Nat := source.toList.count '\n' + 1

theorem lex_quiet_iff {source : String} :
    (lex source).errors = [] ↔ ∀ p ∈ pieces source.toList, p.complaint? = none := by
  rw [← List.filterMap_eq_nil_iff, ← lex_errors_eq, List.map_eq_nil_iff]

theorem toList_joined (above below : String) :
    (joined above below).toList = above.toList ++ '\n' :: below.toList := by
  simp [joined]

theorem pieces_joined {above : String} (hclosed : ∀ body, .unclosed body ∉ pieces above.toList)
    (below : String) : pieces (joined above below).toList =
      pieces above.toList ++ .newline :: pieces below.toList := by
  rw [toList_joined]
  exact ((tiling_pieces _).joined hclosed (tiling_pieces _)).eq_pieces.symm

/-- The pieces of the second source stand as many lines further down as the first source has. -/
theorem placed_joined {above : String} (hclosed : ∀ body, .unclosed body ∉ pieces above.toList)
    (below : String) : placed 1 (pieces (joined above below).toList) =
      ((placed 1 (pieces above.toList)).1 ++
        (.newline, 1 + (linesAbove above : Int)) ::
          (placed (1 + linesAbove above) (pieces below.toList)).1,
        (placed (1 + linesAbove above) (pieces below.toList)).2) := by
  have hlast : (placed 1 (pieces above.toList)).2 = 1 + (above.toList.count '\n' : Int) :=
    congrArg Prod.snd (tiling_pieces above.toList).placed_eq
  have hline : Piece.newline.lineBehind (1 + (above.toList.count '\n' : Int)) =
      1 + linesAbove above := by
    show (1 : Int) + (above.toList.count '\n' : Nat) + 1 = 1 + (_ + 1 : Nat)
    omega
  rw [pieces_joined hclosed, placed_append, hlast, placed_cons, hline]

/-- If the first source closes its strings, both are read as each of them alone. -/
theorem lex_joined_of_closed {above : String}
    (hclosed : ∀ body, .unclosed body ∉ pieces above.toList) (below : String) :
    (lex (joined above below)).tokens =
        (lex above).tokens ++ (lex below).tokens.map (Token.down (linesAbove above)) ∧
      (lex (joined above below)).errors =
        (lex above).errors ++ (lex below).errors.map (StaticError.down (linesAbove above)) ∧
      (lex (joined above below)).endLine = (lex below).endLine + linesAbove above := by
  unfold lex
  dsimp only
  rw [placed_joined hclosed]
  refine ⟨?_, ?_, ?_⟩
  · rw [List.filterMap_append, List.filterMap_cons,
      filterMap_placed_down fun p line => p.token?_down line (linesAbove above)]
    rfl
  · rw [List.filterMap_append, List.filterMap_cons,
      filterMap_placed_down fun p line => p.error?_down line (linesAbove above)]
    rfl
  · rw [placed_down]

/-- Two sources without errors, one below the other, are read as each of them alone. -/
theorem lex_joined {above below : String} (h : (lex above).errors = [])
    (h' : (lex below).errors = []) :
    (lex (joined above below)).errors = [] ∧
      (lex (joined above below)).tokens =
        (lex above).tokens ++ (lex below).tokens.map (Token.down (linesAbove above)) := by
  have hclosed : ∀ body, .unclosed body ∉ pieces above.toList := by
    intro body hbody
    have hnone := lex_quiet_iff.1 h _ hbody
    cases hnone
  obtain ⟨htokens, herrors, -⟩ := lex_joined_of_closed hclosed below
  refine ⟨?_, htokens⟩
  rw [herrors, h, h']
  rfl

/-- Where the first source leaves no string open, reading is done line by line: two sources, one
below the other, give the tokens of the first, then those of the second with its mark of the end,
and the errors of the first, then those of the second, all of the second as many lines further down
as there are lines above. -/
theorem lex_line_by_line (above below : String)
    (h : ∀ e ∈ (lex above).errors, e.problem.message ≠ "Unterminated string.") :
    (lex (joined above below)).withEnd =
        (lex above).tokens ++ (lex below).withEnd.map (Token.down (linesAbove above)) ∧
      (lex (joined above below)).errors =
        (lex above).errors ++ (lex below).errors.map (StaticError.down (linesAbove above)) := by
  have hclosed : ∀ body, .unclosed body ∉ pieces above.toList := by
    intro body hbody
    have hmessage : "Unterminated string." ∈
        (lex above).errors.map fun e => e.problem.message := by
      rw [lex_errors_eq]
      exact List.mem_filterMap.2 ⟨_, hbody, rfl⟩
    obtain ⟨e, he, hproblem⟩ := List.mem_map.1 hmessage
    exact h e he hproblem
  obtain ⟨htokens, herrors, hend⟩ := lex_joined_of_closed hclosed below
  refine ⟨?_, herrors⟩
  rw [Lexed.withEnd, htokens, hend, Lexed.withEnd, List.map_append, List.append_assoc]
  rfl

/-- A number before a point, a stray character, a quote in a comment, a string over two lines, and a
sign that an equals sign could follow. -/
def raggedAbove : String := "12. @ # \"c\n\"a\nb\" !"

/-- An equals sign, a stray character, and a string that is left open. -/
def raggedBelow : String := "= 5\n~ \"d"

theorem raggedAbove_line_by_line :
    (∀ e ∈ (lex raggedAbove).errors, e.problem.message ≠ "Unterminated string.") ∧
      (lex (joined raggedAbove raggedBelow)).withEnd =
        (lex raggedAbove).tokens ++ (lex raggedBelow).withEnd.map (Token.down 3) ∧
      (lex (joined raggedAbove raggedBelow)).errors =
        (lex raggedAbove).errors ++ (lex raggedBelow).errors.map (StaticError.down 3) := by
  have hclosed : ∀ e ∈ (lex raggedAbove).errors,
      e.problem.message ≠ "Unterminated string." := by decide +kernel
  have hlines : linesAbove raggedAbove = 3 := by decide +kernel
  obtain ⟨htokens, herrors⟩ := lex_line_by_line raggedAbove raggedBelow hclosed
  rw [hlines] at htokens herrors
  exact ⟨hclosed, htokens, herrors⟩

end Scriptling
