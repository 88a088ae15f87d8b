-- Where an index says that a name is declared. The line is always right; the column is that of the
-- first text on the line that reads like the name, which may stand before the name itself.
import Scriptling.Proofs.Editor.Introduced
import Scriptling.Proofs.Editor.Lines
import Scriptling.Proofs.Source.Names

namespace Scriptling

namespace Editor

/-! ## Entries and places -/

/-- An entry of an index against a place of its name in the text: `front` is what stands above the
line of the name, `left` and `right` what stands beside it. Where no other line end than line feeds
stands above or to the left, the column is that of the first text like the name, and so the range of
the symbol covers the name just if nothing like it stands to its left. -/
structure Marks (cs : List Char) (d : Declaration) (l : Located) (front left right : List Char) :
    Prop where
  line : Text.IsLine cs d.line front (left ++ d.name.toList ++ right)
  start : l.start = (front ++ left).length
  column : Text.FeedsOnly front → Text.Unbroken left →
    Text.FirstAt d.name.toList (left ++ d.name.toList) d.column
  range : Text.FeedsOnly front → Text.Unbroken left →
    ((Symbol.ofDeclaration d).range =
        ⟨⟨d.line, left.length⟩, ⟨d.line, left.length + d.name.length⟩⟩ ↔
      Text.FirstAt d.name.toList (left ++ d.name.toList) left.length)

theorem fromZero_succ (n : Nat) : fromZero (1 + n) = n := by
  unfold fromZero
  omega

/-- On a line that an editor has too, the first text like the name is found. -/
theorem columnOf_first {cs name front left right : List Char} {t : Token} {number : Nat}
    (hline : Text.IsLine cs number front (left ++ name ++ right))
    (hnumber : fromZero t.line = number) (hlexeme : t.lexeme.toList = name) (hne : name ≠ [])
    (hname : Text.Unbroken name) (hfront : Text.FeedsOnly front) (hleft : Text.Unbroken left) :
    Text.FirstAt name (left ++ name) (columnOf (Text.linesFrom [] cs) t) := by
  obtain ⟨more, ending, hget⟩ := hline.getElem?_around hfront hleft hname hne
  have hhere : name <+: (left ++ name ++ more).drop left.length := by
    rw [List.append_assoc, List.drop_left]
    exact List.prefix_append _ _
  obtain ⟨i, hi, hfound, hfirst⟩ := Text.indexOf?_of_prefix (by simp) hhere
  have hcolumn : columnOf (Text.linesFrom [] cs) t = i := by
    rw [columnOf, hnumber, hget, Option.bind_some, hlexeme, hfound, Option.getD_some]
  rw [hcolumn]
  refine hfirst.of_append ?_
  rw [List.length_append]
  omega

/-- A symbol covers what stands at its column. -/
theorem range_ofDeclaration (d : Declaration) (column : Nat) :
    (Symbol.ofDeclaration d).range =
        ⟨⟨d.line, column⟩, ⟨d.line, column + d.name.length⟩⟩ ↔ d.column = column := by
  simp only [Symbol.ofDeclaration, Range.mk.injEq, Position.mk.injEq, true_and]
  omega

/-- The entry of a name and any place where the name's token stands. -/
theorem marks_of_token {text : String} {t : Token} {l : Located}
    (hmem : (t, l) ∈ locatedTokens text)
    (ht : t.kind = .identifier) (kind : DeclarationKind) (detail : String) :
    ∃ front left right,
      Marks text.toList (.ofToken (Text.lines text) kind detail t) l front left right := by
  obtain ⟨before, name, after, hname⟩ := exists_nameAt hmem ht
  obtain rfl : t.lexeme.toList = name := by rw [hname.lexeme, String.toList_ofList]
  have hunbroken : Text.Unbroken t.lexeme.toList :=
    fun c hc => endsLine_of_continuesWord (hname.continues c hc)
  obtain ⟨front, left, right, hbefore, hline⟩ := Text.isLine_around hunbroken.not_mem_newline
    (before.flatMap Piece.text) (after.flatMap Piece.text)
  have hnumber : fromZero t.line = (before.flatMap Piece.text).count '\n' := by
    rw [hname.line, fromZero_succ]
  rw [← hname.text, ← hnumber] at hline
  have hcolumn := columnOf_first hline rfl rfl hname.ne_nil hunbroken
  refine ⟨front, left, right, hline, by rw [hname.start, hbefore], hcolumn, ?_⟩
  intro hfront hleft
  rw [range_ofDeclaration]
  constructor
  · intro heq
    rw [← heq]
    exact hcolumn hfront hleft
  · exact (hcolumn hfront hleft).unique

/-- What an index says about where names are declared, for every text: each entry is that of a
declaration in the program, whose name is an identifier of the text, and it marks the name wherever
a token like it stands. -/
theorem entries_mark_names {text : String} {index : Index} (h : Index.ofText? text = some index) :
    ∃ ps : List Spot, (∀ p, p ∈ ps ↔ p.Within (read nestingLimit text).statements) ∧
      index.declarations = ps.map (fun p => p.declared.entry (Text.lines text)) ∧
      ∀ p ∈ ps, p.declared.name.kind = .identifier ∧
        (∃ l, (p.declared.name, l) ∈ locatedTokens text) ∧
        ∀ l, (p.declared.name, l) ∈ locatedTokens text → ∃ front left right,
          Marks text.toList (p.declared.entry (Text.lines text)) l front left right := by
  obtain rfl := Index.eq_ofReading h
  refine ⟨placesFrom 0 (read nestingLimit text).statements, mem_placesFrom_zero _,
    declarationsInAll_places _ _, ?_⟩
  intro p hp
  have hkind := introduced_identifier _ _ ((places_sublist text).subset (List.mem_map_of_mem hp))
  have hname := (places_names_sublist text).subset (List.mem_map_of_mem hp)
  refine ⟨hkind, ?_, fun l hl => marks_of_token hl hkind _ _⟩
  rw [← map_fst_locatedTokens, List.mem_map] at hname
  obtain ⟨⟨t, l⟩, hmem, heq⟩ := hname
  exact ⟨l, heq ▸ hmem⟩

theorem countingText_marked : ∃ index, Index.ofText? countingText = some index ∧
    ∃ d ∈ index.declarations, d.name = "i" ∧ d.line = 1 ∧ d.column = 11 ∧
      ∃ l front left right, Marks countingText.toList d l front left right := by
  have hindex : Index.ofText? countingText =
      some (.ofReading countingText (read nestingLimit countingText)) := if_pos (by decide +kernel)
  obtain ⟨ps, -, hentries, hmarks⟩ := entries_mark_names hindex
  have hmem : ⟨"i", .var, 1, 11, ""⟩ ∈
      (Index.ofReading countingText (read nestingLimit countingText)).declarations := by
    decide +kernel
  obtain ⟨p, hp, hentry⟩ := List.mem_map.1 (hentries ▸ hmem)
  obtain ⟨-, ⟨l, hl⟩, hall⟩ := hmarks p hp
  obtain ⟨front, left, right, hmark⟩ := hall l hl
  rw [hentry] at hmark
  exact ⟨_, hindex, _, hmem, rfl, rfl, rfl, l, front, left, right, hmark⟩

/-- A name that its own keyword holds is looked for in the keyword. And behind a line end that the
language does not count, a name is looked for on another line. -/
theorem column_beside_name :
    (Index.ofText? "var a;").map (·.declarations) = some [⟨"a", .var, 0, 1, ""⟩] ∧
    (locatedTokens "var a;").map (fun q => (q.1.kind, q.2.start, q.2.stop)) =
      [(.keyword .varWord, 0, 3), (.identifier, 4, 5), (.semicolon, 5, 6)] ∧
    (Index.ofText? "#\x0c\nvar total;").map (·.declarations) =
      some [⟨"total", .var, 1, 0, ""⟩] := by
  decide +kernel

end Editor

end Scriptling
