-- The line of a token or an error is a count of line ends. Only some pieces move the counter of
-- lines, but the others hold no line end; so behind each piece the counter shows how many line ends
-- stand before that place of the text, and the lines that a reading gives are the lines of such
-- places: the end of a token, the start of a stray character, the end of the source.
import Mathlib.Data.List.Basic
import Scriptling.Proofs.Source.Tiling

namespace Scriptling

/-! ## Lines of places -/

/-- The line of the place after the first `n` characters of a text. -/
def lineAt (cs : List Char) (n : Nat) : Int := 1 + (cs.take n).count '\n'

theorem lineAt_length (cs : List Char) : lineAt cs cs.length = 1 + cs.count '\n' := by
  simp [lineAt]

theorem lineAt_append (front rest : List Char) :
    lineAt (front ++ rest) front.length = 1 + front.count '\n' := by
  simp [lineAt]

theorem lineAt_mono (cs : List Char) {m n : Nat} (h : m ≤ n) : lineAt cs m ≤ lineAt cs n := by
  have hcount := (List.take_sublist_take_left (l := cs) h).count_le '\n'
  unfold lineAt
  omega

/-! ## Located pieces -/

/-- A piece and the two places of the text between which it stands. -/
structure Located where
  piece : Piece
  start : Nat
  stop : Nat

/-- Pieces that follow each other, the first of them at `start`. -/
def located (start : Nat) : List Piece → List Located
  | [] => []
  | p :: rest => ⟨p, start, start + p.text.length⟩ :: located (start + p.text.length) rest

/-- A located piece is what the text holds between its two places. -/
theorem located_text (ps : List Piece) (front : List Char) :
    ∀ l ∈ located front.length ps,
      ((front ++ ps.flatMap Piece.text).take l.stop).drop l.start = l.piece.text := by
  induction ps generalizing front with
  | nil => simp [located]
  | cons p ps ih =>
    have hrest := ih (front ++ p.text)
    rw [List.length_append, List.append_assoc] at hrest
    intro l hl
    rcases List.mem_cons.1 hl with rfl | hl
    · simp [List.take_append]
    · exact hrest l hl

/-- The places only move forward. -/
theorem located_le (ps : List Piece) (start : Nat) : ∀ l ∈ located start ps, start ≤ l.stop := by
  induction ps generalizing start with
  | nil => simp [located]
  | cons p ps ih =>
    intro l hl
    rcases List.mem_cons.1 hl with rfl | hl
    · exact Nat.le_add_right _ _
    · exact (Nat.le_add_right _ _).trans (ih _ l hl)

theorem located_pairwise (ps : List Piece) (start : Nat) :
    (located start ps).Pairwise fun l m => l.stop ≤ m.stop := by
  induction ps generalizing start with
  | nil => exact .nil
  | cons p ps ih => exact .cons (located_le ps _) (ih _)

theorem located_stop_le (ps : List Piece) (start : Nat) :
    ∀ l ∈ located start ps, l.stop ≤ start + (ps.flatMap Piece.text).length := by
  induction ps generalizing start with
  | nil => simp [located]
  | cons p ps ih =>
    intro l hl
    rw [List.flatMap_cons, List.length_append]
    rcases List.mem_cons.1 hl with rfl | hl
    · simp only
      omega
    · have := ih _ l hl
      omega

/-! ## The counter of lines -/

/-- A class of characters without the line end. -/
theorem count_newline_of_forall {among : Char → Bool} {cs : List Char}
    (h : ∀ c ∈ cs, among c = true) (hnewline : among '\n' = false) : cs.count '\n' = 0 := by
  refine List.count_eq_zero.2 fun hmem => ?_
  rw [h _ hmem] at hnewline
  cases hnewline

theorem count_newline_single {c : Char} (h : c ≠ '\n') : [c].count '\n' = 0 :=
  List.count_eq_zero.2 fun hmem => h (List.mem_singleton.1 hmem).symm

/-- A piece in its place moves the counter by the line ends that it holds: where the counter stays,
there are none. -/
theorem Piece.Stands.lineBehind_eq {p : Piece} {rest : List Char} (h : p.Stands rest)
    (line : Int) : p.lineBehind line = line + p.text.count '\n' := by
  have hstays : p.text.count '\n' = 0 → line = line + p.text.count '\n' := by
    intro hnone
    rw [hnone]
    exact (Int.add_zero line).symm
  cases h with
  | newline | quoted | unclosed => rfl
  | blanks _ hall => exact hstays (count_newline_of_forall hall rfl)
  | comment hnone =>
    refine hstays (List.count_eq_zero.2 fun hmem => hnone ?_)
    exact (List.mem_cons.1 hmem).resolve_left (by decide)
  | whole _ hall => exact hstays (count_newline_of_forall hall rfl)
  | @fraction digits decimals _ _ hall hne hall' =>
    refine hstays ?_
    obtain ⟨d, ds, rfl⟩ := List.exists_cons_of_ne_nil hne
    show (digits ++ '.' :: (d :: ds)).count '\n' = 0
    rw [List.count_append, count_newline_of_forall hall rfl, List.count_cons_of_ne (by decide),
      count_newline_of_forall hall' rfl]
  | @word c tail _ hc htail =>
    refine hstays ?_
    have hne : c ≠ '\n' := by
      rintro rfl
      revert hc
      decide
    show (c :: tail).count '\n' = 0
    rw [List.count_cons_of_ne hne, count_newline_of_forall htail (by decide)]
  | @single c kind _ hkind =>
    refine hstays (count_newline_single ?_)
    rintro rfl
    cases hkind
  | @double c kind _ hkind =>
    refine hstays ?_
    have hne : c ≠ '\n' := by
      rintro rfl
      cases hkind
    show [c, '='].count '\n' = 0
    rw [List.count_cons_of_ne hne, count_newline_single (by decide)]
  | stray hc => exact hstays (count_newline_single hc)

/-- The counter, along a tiling that starts behind `front`: with each piece it shows the line of the
place where the piece ends, and at last the line where the text ends. -/
theorem Tiling.placed_behind {cs : List Char} {ps : List Piece} (h : Tiling cs ps)
    (front : List Char) :
    placed (1 + front.count '\n') ps =
      ((located front.length ps).map fun l => (l.piece, lineAt (front ++ cs) l.stop),
        1 + ((front ++ cs).count '\n' : Int)) := by
  induction h generalizing front with
  | nil =>
    rw [List.append_nil]
    rfl
  | @cons p rest ps hp _ ih =>
    have hrest := ih (front ++ p.text)
    have hline := lineAt_append (front ++ p.text) rest
    have hbehind := hp.lineBehind_eq (1 + front.count '\n')
    rw [List.length_append, List.append_assoc, List.count_append] at hrest hline
    push_cast at hrest hline
    rw [← Int.add_assoc, ← hbehind] at hrest hline
    rw [placed_cons, located, List.map_cons, hline, hrest]

theorem Tiling.placed_eq {cs : List Char} {ps : List Piece} (h : Tiling cs ps) :
    placed 1 ps = ((located 0 ps).map fun l => (l.piece, lineAt cs l.stop),
      1 + (cs.count '\n' : Int)) := by
  have hplaced := h.placed_behind []
  rw [List.nil_append] at hplaced
  exact hplaced

/-- The last line that the counter shows. -/
theorem lex_endLine (source : String) :
    (lex source).endLine = 1 + source.toList.count '\n' :=
  congrArg Prod.snd (tiling_pieces source.toList).placed_eq

/-! ## What a located piece becomes -/

namespace Located

/-- The token of a located piece: its kind, its text and the line on which it ends. -/
def token? (cs : List Char) (l : Located) : Option (Kind × String × Int) :=
  l.piece.kind?.map fun kind => (kind, String.ofList l.piece.text, lineAt cs l.stop)

/-- The error of a located piece. A stray character is reported on the line on which it stands,
an open string on the line on which the source ends. -/
def error? (cs : List Char) (l : Located) : Option (String × Int) :=
  match l.piece with
  | .stray _ => some ("Unexpected character.", lineAt cs l.start)
  | .unclosed _ => some ("Unterminated string.", 1 + cs.count '\n')
  | _ => none

end Located

theorem Piece.token?_line (p : Piece) (line : Int) :
    (p.token? line).map (fun t => (t.kind, t.lexeme, t.line)) =
      p.kind?.map (fun k => (k, String.ofList p.text, line)) := by
  cases p with
  | word text =>
    simp only [token?, kind?, Piece.text]
    cases Keyword.ofText? (String.ofList text) <;> rfl
  | _ => rfl

/-- Neither a stray character nor what follows an open string ends another line: the one is no
line end, and nothing follows the other. -/
theorem Tiling.error?_line {front cs : List Char} {ps : List Piece} (h : Tiling cs ps) :
    ∀ l ∈ located front.length ps,
      (l.piece.error? (lineAt (front ++ cs) l.stop)).map (fun e => (e.problem.message, e.line)) =
        l.error? (front ++ cs) := by
  induction h generalizing front with
  | nil => simp [located]
  | @cons p rest ps hp htail ih =>
    intro l hl
    rcases List.mem_cons.1 hl with rfl | hl
    · cases hp with
      | @stray c _ hc =>
        have hstop : lineAt (front ++ c :: rest) (front.length + 1) =
            lineAt (front ++ c :: rest) front.length := by
          simp [lineAt, List.take_append, List.take_of_length_le, hc]
        simpa [Piece.error?, Located.error?, Piece.text, Problem.message] using hstop
      | @unclosed body =>
        have hstop := lineAt_length (front ++ '"' :: body)
        simpa [Piece.error?, Located.error?, Piece.text, Problem.message] using hstop
      | _ => rfl
    · have hrest := @ih (front ++ p.text) l (by rwa [List.length_append])
      rwa [List.append_assoc] at hrest

theorem Tiling.tokens_line {source : String} {ps : List Piece} (h : Tiling source.toList ps) :
    (lex source).tokens.map (fun t => (t.kind, t.lexeme, t.line)) =
      (located 0 ps).filterMap (Located.token? source.toList) := by
  rw [lex, ← h.eq_pieces, h.placed_eq]
  simp only [List.filterMap_map, List.map_filterMap]
  refine List.filterMap_congr fun l _ => ?_
  exact l.piece.token?_line (lineAt source.toList l.stop)

theorem Tiling.errors_line {source : String} {ps : List Piece} (h : Tiling source.toList ps) :
    (lex source).errors.map (fun e => (e.problem.message, e.line)) =
      (located 0 ps).filterMap (Located.error? source.toList) := by
  rw [lex, ← h.eq_pieces, h.placed_eq]
  simp only [List.filterMap_map, List.map_filterMap]
  exact List.filterMap_congr (@h.error?_line [])

/-- Lines are counted from 1. -/
theorem lex_line_pos {source : String} : ∀ t ∈ (lex source).tokens, 0 < t.line := by
  intro t ht
  have hmem : (t.kind, t.lexeme, t.line) ∈
      (lex source).tokens.map fun t => (t.kind, t.lexeme, t.line) := List.mem_map_of_mem ht
  rw [(tiling_pieces _).tokens_line] at hmem
  obtain ⟨l, -, hl⟩ := List.mem_filterMap.1 hmem
  obtain ⟨kind, -, heq⟩ := Option.map_eq_some_iff.1 hl
  have hline : lineAt source.toList l.stop = t.line := congrArg (·.2.2) heq
  unfold lineAt at hline
  omega

/-- The lines of located pieces never decrease, and none is behind the last. -/
theorem Tiling.lines_pairwise {cs : List Char} {ps : List Piece} (h : Tiling cs ps) :
    ((located 0 ps).filterMap (Located.token? cs) ++
      [(Kind.eof, "", 1 + (cs.count '\n' : Int))]).Pairwise fun t u => t.2.2 ≤ u.2.2 := by
  have hline : ∀ (l : Located) t, l.token? cs = some t → t.2.2 = lineAt cs l.stop := by
    intro l t ht
    obtain ⟨kind, -, rfl⟩ := Option.map_eq_some_iff.1 ht
    rfl
  refine List.pairwise_append.2 ⟨?_, List.pairwise_singleton _ _, ?_⟩
  · refine List.pairwise_filterMap.2 ((located_pairwise ps 0).imp ?_)
    intro l m hle t ht u hu
    rw [hline l t ht, hline m u hu]
    exact lineAt_mono cs hle
  · intro t ht u hu
    obtain ⟨l, hl, ht⟩ := List.mem_filterMap.1 ht
    have hstop := located_stop_le ps 0 l hl
    rw [h.text_eq, Nat.zero_add] at hstop
    rw [List.mem_singleton.1 hu, hline l t ht, ← lineAt_length]
    exact lineAt_mono cs hstop

/-- Lines are exact, for every source and its only tiling: a token is on the line of the place
where it ends, the mark of the end on the line where the source ends, a stray character on the
line of the place where it stands and an open string on the line of the end, so that the lines of
the tokens never decrease. -/
theorem lex_lines_exact (source : String) :
    ∃ ps : List Piece, Tiling source.toList ps ∧
      (∀ l ∈ located 0 ps, (source.toList.take l.stop).drop l.start = l.piece.text) ∧
      (lex source).withEnd.map (fun t => (t.kind, t.lexeme, t.line)) =
        (located 0 ps).filterMap (Located.token? source.toList) ++
          [(Kind.eof, "", 1 + (source.toList.count '\n' : Int))] ∧
      (lex source).errors.map (fun e => (e.problem.message, e.line)) =
        (located 0 ps).filterMap (Located.error? source.toList) ∧
      (lex source).withEnd.Pairwise fun t u => t.line ≤ u.line := by
  have htiling := tiling_pieces source.toList
  have htokens : (lex source).withEnd.map (fun t => (t.kind, t.lexeme, t.line)) =
      (located 0 (pieces source.toList)).filterMap (Located.token? source.toList) ++
        [(Kind.eof, "", 1 + (source.toList.count '\n' : Int))] := by
    rw [Lexed.withEnd, List.map_append, htiling.tokens_line, lex_endLine]
    rfl
  refine ⟨pieces source.toList, htiling, ?_, htokens, htiling.errors_line, ?_⟩
  · have htext := located_text (pieces source.toList) []
    rwa [List.nil_append, htiling.text_eq] at htext
  · have hpairwise := htiling.lines_pairwise
    rw [← htokens, List.pairwise_map] at hpairwise
    exact hpairwise

end Scriptling
