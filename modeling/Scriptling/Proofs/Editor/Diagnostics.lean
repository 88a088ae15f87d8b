-- Errors as an editor shows them. Each error of a text is on one of its lines, as the language
-- numbers them; an editor marks the line of its own with the same number, which is the same line
-- where no other line end than a line feed stands in it or above.
import Mathlib.Data.List.Forall2
import Scriptling.Proofs.Editor.Declared
import Scriptling.Proofs.Editor.Lines
import Scriptling.Proofs.Scope.Blame
import Scriptling.Proofs.Source.Lines

namespace Scriptling

/-! ## The lines of errors -/

/-- The last line of a source. -/
def lastLine (source : String) : Int := 1 + source.toList.count '\n'

theorem placed_line_le {source : String} {q : Piece × Int}
    (h : q ∈ (placed 1 (pieces source.toList)).1) : q.2 ≤ lastLine source := by
  rw [(tiling_pieces source.toList).placed_eq, List.mem_map] at h
  obtain ⟨l, -, rfl⟩ := h
  have hcount := (List.take_sublist l.stop source.toList).count_le '\n'
  simp only [lineAt, lastLine]
  omega

theorem Piece.token?_line_eq {p : Piece} {line : Int} {t : Token} (h : p.token? line = some t) :
    t.line = line := by
  have hface := p.token?_line line
  rw [h, Option.map_some] at hface
  obtain ⟨kind, -, hread⟩ := Option.map_eq_some_iff.1 hface.symm
  exact (congrArg (fun face => face.2.2) hread).symm

theorem Piece.error?_line_eq {p : Piece} {line : Int} {e : StaticError}
    (h : p.error? line = some e) : e.line = line := by
  cases p with
  | unclosed | stray =>
    obtain rfl := Option.some.inj h
    rfl
  | _ => cases h

theorem lex_token_line_le {source : String} {t : Token} (h : t ∈ (lex source).tokens) :
    t.line ≤ lastLine source := by
  obtain ⟨q, hq, ht⟩ := List.mem_filterMap.1 h
  rw [Piece.token?_line_eq ht]
  exact placed_line_le hq

theorem lex_error_line_le {source : String} {e : StaticError} (h : e ∈ (lex source).errors) :
    e.line ≤ lastLine source := by
  obtain ⟨q, hq, he⟩ := List.mem_filterMap.1 h
  rw [Piece.error?_line_eq he]
  exact placed_line_le hq

/-- No token that a program keeps or that is complained about is behind the last line. -/
theorem parse_line_le (limit : Nat) (source : String) :
    (∀ s ∈ (parse limit (lex source).tokens).statements,
        s.Keeps fun t => t.line ≤ lastLine source) ∧
      ∀ c ∈ (parse limit (lex source).tokens).complaints, ∀ t ∈ c.token?,
        t.line ≤ lastLine source :=
  Parser.parse_among limit fun _ => lex_token_line_le

/-- What is wrong with the grammar is met at a token, or at the end of the source. -/
theorem read_error_line_le {limit : Nat} {source : String} {e : StaticError}
    (h : e ∈ (read limit source).errors) : e.line ≤ lastLine source := by
  rcases List.mem_append.1 h with h | h
  · exact lex_error_line_le h
  · obtain ⟨c, hc, rfl⟩ := List.mem_map.1 h
    unfold Complaint.error
    cases ht : c.token? with
    | none => exact Int.le_of_eq (lex_endLine source)
    | some t => exact (parse_line_le limit source).2 c hc t ht

/-- A statement's first line is that of one of its tokens, or none at all. -/
theorem Stmt.firstLine_le {ι : Type} {s : Stmt ι} {line : Int} (hline : 0 ≤ line)
    (h : s.Keeps fun t => t.line ≤ line) : s.firstLine ≤ line := by
  unfold Stmt.firstLine
  cases htokens : s.tokens with
  | nil => exact hline
  | cons t ts => exact h t (by simp [htokens])

theorem scope_error_line_le {limit : Nat} {source : String} {e : StaticError}
    (h : e ∈ (resolve walkLimit ∅
      ((Stmt.labelAll (read limit source).statements).run 0).1).1.errors) :
    e.line ≤ lastLine source := by
  obtain ⟨ss, next, hrun, herase, -⟩ := Stmt.labelAll_labels (read limit source).statements 0
  rw [hrun] at h
  have hkeeps : ∀ s ∈ ss, s.Keeps fun t => t.line ≤ lastLine source := by
    rw [← Stmt.keeps_all, ← Stmt.tokensOfAll_erase, herase, Stmt.keeps_all]
    exact (parse_line_le limit source).1
  have hlast : 0 ≤ lastLine source := by
    unfold lastLine
    omega
  refine resolve_blames (E := fun e => e.line ≤ lastLine source) ?_ _ _ hkeeps ?_ e h
  · exact fun t ht problem => ht
  · exact fun s hs => Stmt.firstLine_le hlast (hkeeps s hs)

namespace Editor

/-- Every error of a text is on one of its lines. -/
theorem staticErrors_line_le {limit : Nat} {text : String} {e : StaticError}
    (h : e ∈ staticErrors (read limit text)) : e.line ≤ lastLine text := by
  unfold staticErrors at h
  split at h
  · exact scope_error_line_le (Array.mem_toList_iff.1 h)
  · exact read_error_line_le h

/-! ## Diagnostics -/

/-- A diagnostic against its error on the line with the number `n` from 0 on: it starts with the
line and does not leave it, and it covers the line where the text has no other line end in it or
above than line feeds, each perhaps behind a carriage return. -/
structure Covers (cs : List Char) (n : Nat) (d : Diagnostic) : Prop where
  line : ∃ front line, Text.IsLine cs n front line
  start : d.range.start = ⟨n, 0⟩
  stop : d.range.stop.line = n
  width : ∀ front line, Text.IsLine cs n front line → Text.FeedsOnly front →
    Text.Unbroken (Text.withoutReturn line) →
    d.range.stop.character = (Text.withoutReturn line).length

theorem covers_ofError {text : String} {e : StaticError} {n : Nat} (hline : e.line = n + 1)
    (hlast : e.line ≤ lastLine text) :
    Covers text.toList n (.ofError (Text.lines text) e) := by
  have hnumber : fromZero e.line = n := by
    rw [hline, fromZero]
    omega
  have hcount : n ≤ text.toList.count '\n' := by
    unfold lastLine at hlast
    omega
  have hrange : (Diagnostic.ofError (Text.lines text) e).range =
      ⟨⟨n, 0⟩, ⟨n, ((Text.lines text)[n]?.map (·.body.length)).getD 0⟩⟩ := by
    rw [Diagnostic.ofError, hnumber, lineRange]
  refine ⟨Text.exists_isLine hcount, by rw [hrange], by rw [hrange], ?_⟩
  intro front line hisLine hfront hunbroken
  rw [hrange]
  exact hisLine.width hfront hunbroken

/-- Every error of a text is shown, in order, by a diagnostic at the error's line. -/
theorem diagnostics_cover_lines {text : String} {index : Index}
    (h : Index.ofText? text = some index) :
    List.Forall₂ (fun (e : StaticError) (d : Diagnostic) =>
        1 ≤ e.line → ∃ n : Nat, e.line = n + 1 ∧ Covers text.toList n d)
      index.errors (diagnostics text index) := by
  obtain rfl := Index.eq_ofReading h
  rw [diagnostics, List.forall₂_map_right_iff, List.forall₂_same]
  intro e he hpos
  obtain ⟨n, hn⟩ := Int.eq_ofNat_of_zero_le (Int.sub_nonneg.2 hpos)
  have hline : e.line = n + 1 := by omega
  exact ⟨n, hline, covers_ofError hline (staticErrors_line_le he)⟩

/-- A text with a stray character on its second line. -/
def strayText : String := "print 1;\r\n@ 2;\r\n"

theorem strayText_covered : ∃ index, Index.ofText? strayText = some index ∧
    ∃ e d, index.errors = [e] ∧ e.line = 2 ∧ diagnostics strayText index = [d] ∧
      d.range = ⟨⟨1, 0⟩, ⟨1, 4⟩⟩ ∧ Covers strayText.toList 1 d := by
  have hindex : Index.ofText? strayText =
      some (.ofReading strayText (read nestingLimit strayText)) := if_pos (by decide +kernel)
  have herrors : (Index.ofReading strayText (read nestingLimit strayText)).errors =
      [⟨2, .nowhere, .unexpectedCharacter⟩] := by decide +kernel
  have hshown : diagnostics strayText (.ofReading strayText (read nestingLimit strayText)) =
      [⟨⟨⟨1, 0⟩, ⟨1, 4⟩⟩, "Error: Unexpected character."⟩] := by decide +kernel
  have hcovers := diagnostics_cover_lines hindex
  rw [herrors, hshown, List.forall₂_cons] at hcovers
  obtain ⟨n, hline, hcover⟩ := hcovers.1 (by decide)
  obtain rfl : n = 1 := by
    simp only at hline
    omega
  exact ⟨_, hindex, _, _, herrors, rfl, hshown, rfl, hcover⟩

/-- A carriage return alone ends a line of an editor and none of the language. -/
theorem line_above_covered :
    Text.IsLine "# one\rtwo\n@".toList 1 "# one\rtwo\n".toList ['@'] ∧
    (Index.ofText? "# one\rtwo\n@").map
        (fun i => (i.errors.map (·.line), (diagnostics "# one\rtwo\n@" i).map (·.range))) =
      some ([2], [⟨⟨1, 0⟩, ⟨1, 3⟩⟩]) := by
  refine ⟨⟨⟨[], rfl, by simp⟩, ?_, rfl, by decide⟩, by decide +kernel⟩
  rintro c ⟨⟩
  rfl

end Editor

end Scriptling
