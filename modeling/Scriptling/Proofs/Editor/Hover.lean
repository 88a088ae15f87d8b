-- The word under the cursor. On a line it is the longest row of letters, numerals and underscores
-- around a place; over a name of a program it is the name. Behind the start of a line's end there
-- is no word, and behind the whole line there is no place to look at.
import Scriptling.Editor.Document
import Scriptling.Proofs.Editor.Lines
import Scriptling.Proofs.Source.Names

namespace Scriptling

namespace Editor

/-! ## Words on a line -/

/-- A word on a line and a place in it or at one of its ends. The word cannot be made longer. -/
structure WordAround (line : List Char) (place : Nat) (left word right : List Char) : Prop where
  text : line = left ++ word ++ right
  whole : ∀ c ∈ word, Text.inWord c = true
  starts : ∀ c ∈ left.getLast?, Text.inWord c = false
  ends : ∀ c ∈ right.head?, Text.inWord c = false
  behind : left.length ≤ place
  before : place ≤ left.length + word.length

section Words

variable {line left word right : List Char} {place : Nat}

/-- The place cuts the word in two: what is passed going left, and what is passed going right. -/
theorem WordAround.scan (h : WordAround line place left word right) :
    ∃ first last, word = first ++ last ∧ place = left.length + first.length ∧
      (line.take place).reverse.takeWhile Text.inWord = first.reverse ∧
      (line.drop place).takeWhile Text.inWord = last := by
  have hplace := h.behind
  have hword := h.before
  have hcut : word.take (place - left.length) ++ word.drop (place - left.length) = word :=
    List.take_append_drop _ _
  have hlength : (word.take (place - left.length)).length = place - left.length :=
    List.length_take_of_le (by omega)
  generalize word.take (place - left.length) = first at hcut hlength
  generalize word.drop (place - left.length) = last at hcut
  have hfirst : ∀ c ∈ first, Text.inWord c = true := fun c hc => h.whole c (by simp [← hcut, hc])
  have hlast : ∀ c ∈ last, Text.inWord c = true := fun c hc => h.whole c (by simp [← hcut, hc])
  have hline : line = (left ++ first) ++ (last ++ right) := by simp [h.text, ← hcut]
  have hstart : place = (left ++ first).length := by
    rw [List.length_append]
    omega
  refine ⟨first, last, hcut.symm, by omega, ?_, ?_⟩
  · have hstarts : Piece.Ends Text.inWord left.reverse := by
      intro c hc
      rw [List.head?_reverse] at hc
      exact h.starts c hc
    rw [hline, hstart, List.take_left, List.reverse_append]
    exact (Piece.takeWhile_of_ends (by simpa using hfirst) hstarts).1
  · rw [hline, hstart, List.drop_left]
    exact (Piece.takeWhile_of_ends hlast h.ends).1

/-- Every place on a line has a word around it, perhaps an empty one. -/
theorem exists_wordAround (h : place ≤ line.length) :
    ∃ left word right, WordAround line place left word right := by
  have hbefore :=
    List.takeWhile_append_dropWhile (p := Text.inWord) (l := (line.take place).reverse)
  have hbehind := List.takeWhile_append_dropWhile (p := Text.inWord) (l := line.drop place)
  have hfirst := Piece.forall_takeWhile Text.inWord (line.take place).reverse
  have hlast := Piece.forall_takeWhile Text.inWord (line.drop place)
  have hstarts := Piece.ends_dropWhile Text.inWord (line.take place).reverse
  have hends := Piece.ends_dropWhile Text.inWord (line.drop place)
  generalize (line.take place).reverse.takeWhile Text.inWord = first at hbefore hfirst
  generalize (line.take place).reverse.dropWhile Text.inWord = left at hbefore hstarts
  generalize (line.drop place).takeWhile Text.inWord = last at hbehind hlast
  generalize (line.drop place).dropWhile Text.inWord = right at hbehind hends
  have hleft : line.take place = left.reverse ++ first.reverse := by
    rw [← List.reverse_append, hbefore, List.reverse_reverse]
  have hlength : place = left.length + first.length := by
    have hlength := congrArg List.length hleft
    simp only [List.length_take, List.length_append, List.length_reverse] at hlength
    omega
  refine ⟨left.reverse, first.reverse ++ last, right, ?_, ?_, ?_, hends, ?_, ?_⟩
  · rw [← List.take_append_drop place line, hleft, ← hbehind]
    simp
  · intro c hc
    rcases List.mem_append.1 hc with hc | hc
    · exact hfirst c (List.mem_reverse.1 hc)
    · exact hlast c hc
  · intro c hc
    rw [List.getLast?_reverse] at hc
    exact hstarts c hc
  · rw [List.length_reverse]
    omega
  · simp only [List.length_append, List.length_reverse]
    omega

end Words

/-- The word at a position is the one around its place. -/
theorem wordAt_of_around {text : String} {p : Position} {l : Text.Line}
    {left word right : List Char}
    (hline : (Text.lines text)[p.line]? = some l)
    (h : WordAround l.full p.character left word right) :
    wordAt text p =
      .ok (if word.isEmpty then none else some (String.ofList word), left.length) := by
  obtain ⟨first, last, rfl, hplace, hfirst, hlast⟩ := h.scan
  have hlength : ¬ l.full.length < p.character := by
    rw [h.text]
    simp only [List.length_append]
    omega
  have hstart : p.character - first.reverse.length = left.length := by
    rw [List.length_reverse]
    omega
  simp only [wordAt, hline, if_neg hlength, hfirst, hlast, hstart, List.reverse_reverse]

/-! ## Positions -/

/-- The position of the place behind the first `n` characters of some lines. -/
def positionOf : List Text.Line → Nat → Position
  | [], n => ⟨0, n⟩
  | l :: rest, n =>
    if n < l.full.length then ⟨0, n⟩
    else
      let p := positionOf rest (n - l.full.length)
      ⟨p.line + 1, p.character⟩

theorem positionOf_append (lines : List Text.Line) {l : Text.Line} {k : Nat}
    (h : k < l.full.length) (after : List Text.Line) :
    positionOf (lines ++ l :: after) ((lines.flatMap Text.Line.full).length + k) =
      ⟨lines.length, k⟩ := by
  induction lines with
  | nil => simp [positionOf, h]
  | cons first lines ih =>
    rw [List.cons_append, positionOf, List.flatMap_cons, List.length_append, Nat.add_assoc,
      if_neg (by omega), Nat.add_sub_cancel_left, ih]
    rfl

/-! ## Names under the cursor -/

/-- Where a program has a name, an editor has a line with the same word. -/
theorem exists_line_of_nameAt {limit : Nat} {text : String} {t : Token} {l : Located}
    {before after : List Piece} {name : List Char} (h : NameAt text t l before name after)
    (hread : (read limit text).errors = []) :
    ∃ number line left right, positionOf (Text.lines text) l.start = ⟨number, left.length⟩ ∧
      (Text.lines text)[number]? = some line ∧
      ∀ k ≤ name.length, WordAround line.full (left.length + k) left name right := by
  rw [read, List.append_eq_nil_iff, List.map_eq_nil_iff] at hread
  obtain ⟨hfront, hbehind⟩ := h.apart hread.1 (Parser.spaced_of_quiet hread.2)
  have hunbroken : Text.Unbroken name := fun c hc => endsLine_of_continuesWord (h.continues c hc)
  obtain ⟨lines, left, right, ending, others, hlines, hleft⟩ :=
    Text.linesFrom_around h.ne_nil hunbroken [] (before.flatMap Piece.text)
      (after.flatMap Piece.text)
  have hlines' : Text.lines text = lines ++ ⟨left ++ name ++ right, ending⟩ :: others := by
    rw [Text.lines, h.text, hlines]
  rw [List.reverse_nil, List.nil_append] at hleft
  -- what follows the name on its line starts what follows it in the text
  have hright : right ++ ending ++ others.flatMap Text.Line.full = after.flatMap Piece.text := by
    have htext := Text.full_linesFrom [] text.toList
    rw [← Text.lines, hlines', h.text, ← hleft] at htext
    simpa [Text.Line.full] using htext
  have hstart : l.start = (lines.flatMap Text.Line.full).length + left.length := by
    rw [h.start, ← hleft, List.length_append]
  have hname := List.length_pos_iff.2 h.ne_nil
  refine ⟨lines.length, ⟨left ++ name ++ right, ending⟩, left, right ++ ending, ?_, ?_, ?_⟩
  · rw [hstart, hlines']
    refine positionOf_append lines ?_ others
    simp only [Text.Line.full, List.length_append]
    omega
  · simp [hlines']
  · intro k hk
    refine ⟨by simp [Text.Line.full], ?_, ?_, ?_, by omega, by omega⟩
    · exact fun c hc => inWord_of_continuesWord (h.continues c hc)
    · intro c hc
      apply hfront
      rw [← hleft, List.getLast?_append, Option.mem_def.1 hc]
      rfl
    · intro c hc
      apply hbehind
      rw [← hright, List.head?_append, Option.mem_def.1 hc]
      rfl

/-- Over a name of a program, and just behind it, the word under the cursor is the name. -/
theorem word_under_cursor_is_name {limit : Nat} {text : String}
    (h : (read limit text).errors = []) :
    (locatedTokens text).map Prod.fst = (lex text).tokens ∧
    ∀ t l, (t, l) ∈ locatedTokens text → t.kind = .identifier →
      (text.toList.take l.stop).drop l.start = t.lexeme.toList ∧
      ∀ k ≤ t.lexeme.length,
        let first := positionOf (Text.lines text) l.start
        wordAt text ⟨first.line, first.character + k⟩ = .ok (some t.lexeme, first.character) := by
  refine ⟨map_fst_locatedTokens text, ?_⟩
  intro t l hmem hkind
  obtain ⟨before, name, after, hname⟩ := exists_nameAt hmem hkind
  obtain ⟨number, line, left, right, hfirst, hline, haround⟩ := exists_line_of_nameAt hname h
  rw [hname.lexeme, String.toList_ofList, String.length_ofList, hfirst]
  refine ⟨hname.slice, ?_⟩
  intro k hk first
  have hword := wordAt_of_around (p := ⟨number, left.length + k⟩) hline (haround k hk)
  simpa [hname.ne_nil] using hword

/-- A sum behind a comment that an editor breaks into two lines. -/
def sumText : String := "# one\x0btwo\nprint 1+ab;"

theorem sumText_word : (read nestingLimit sumText).errors = [] ∧
    ∃ t l, (t, l) ∈ locatedTokens sumText ∧ t.kind = .identifier ∧ t.lexeme = "ab" ∧
      wordAt sumText ⟨2, 10⟩ = .ok (some "ab", 8) := by
  have hread : (read nestingLimit sumText).errors = [] := by decide +kernel
  have hfaces : ((locatedTokens sumText).map fun q => (q.1.kind, q.1.lexeme, q.2.start))[3]? =
      some (.identifier, "ab", 18) := by decide +kernel
  rw [List.getElem?_map, Option.map_eq_some_iff] at hfaces
  obtain ⟨⟨t, l⟩, hget, hface⟩ := hfaces
  simp only [Prod.mk.injEq] at hface
  obtain ⟨hkind, hlexeme, hstart⟩ := hface
  have hmem := List.mem_of_getElem? hget
  have hword := ((word_under_cursor_is_name hread).2 t l hmem hkind).2 2 (by rw [hlexeme]; decide)
  have hfirst : positionOf (Text.lines sumText) l.start = ⟨2, 8⟩ := by
    rw [hstart]
    decide +kernel
  rw [hfirst, hlexeme] at hword
  exact ⟨hread, t, l, hmem, hkind, hlexeme, hword⟩

/-! ## Hover -/

section Hover

variable {text : String} {p : Position} {l : Text.Line}

theorem wordAt_below (h : (Text.lines text).length ≤ p.line) :
    wordAt text p = .ok (none, p.character) := by
  simp [wordAt, List.getElem?_eq_none h]

theorem wordAt_past (hline : (Text.lines text)[p.line]? = some l)
    (h : l.full.length < p.character) : wordAt text p = .error .pastLineEnd := by
  simp [wordAt, hline, h]

/-- A line's end belongs to no word: a word around a place before the end is one of the line
without its end. -/
theorem WordAround.withEnding {place : Nat} {left word right : List Char}
    (hl : ∀ c ∈ l.ending, Text.endsLine c = true) (h : WordAround l.body place left word right) :
    WordAround l.full place left word (right ++ l.ending) where
  text := by simp [Text.Line.full, h.text]
  whole := h.whole
  starts := h.starts
  ends c hc := by
    rw [List.head?_append, Option.mem_def, Option.or_eq_some_iff] at hc
    rcases hc with hc | ⟨-, hc⟩
    · exact h.ends c hc
    · exact inWord_of_endsLine (hl c (List.mem_of_mem_head? hc))
  behind := h.behind
  before := h.before

/-- Behind the start of a line's end there is no word. -/
theorem wordAround_ending {place : Nat} (hl : ∀ c ∈ l.ending, Text.endsLine c = true)
    (hbody : l.body.length < place) (hfull : place ≤ l.full.length) :
    WordAround l.full place (l.full.take place) [] (l.full.drop place) := by
  have hlength : (l.full.take place).length = place := List.length_take_of_le hfull
  refine ⟨by simp, by simp, ?_, ?_, by omega, by omega⟩
  · intro c hc
    have htake : l.full.take place = l.body ++ l.ending.take (place - l.body.length) := by
      rw [Text.Line.full, List.take_append, List.take_of_length_le (by omega)]
    have hne : l.ending.take (place - l.body.length) ≠ [] := by
      intro hnil
      rw [htake, hnil, List.append_nil] at hlength
      omega
    rw [htake, List.getLast?_append_of_ne_nil _ hne] at hc
    exact inWord_of_endsLine (hl c (List.mem_of_mem_take (List.mem_of_getLast? hc)))
  · intro c hc
    have hdrop : l.full.drop place = l.ending.drop (place - l.body.length) := by
      rw [Text.Line.full, List.drop_append, List.drop_of_length_le (by omega), List.nil_append]
    rw [hdrop] at hc
    exact inWord_of_endsLine (hl c (List.mem_of_mem_drop (List.mem_of_mem_head? hc)))

theorem mem_lines_ending (h : (Text.lines text)[p.line]? = some l) :
    ∀ c ∈ l.ending, Text.endsLine c = true :=
  (Text.mem_linesFrom (List.forall_mem_nil _) l (List.mem_of_getElem? h)).2

end Hover

theorem hover_of_wordAt {d : Document} {p : Position} {word : Option String} {start : Nat}
    (h : wordAt d.text p = .ok (word, start)) :
    d.hover p = .ok (word.bind d.index.describe) := by
  rw [Document.hover, h]
  rfl

theorem hover_of_around {d : Document} {p : Position} {l : Text.Line} {left word right : List Char}
    (hline : (Text.lines d.text)[p.line]? = some l)
    (h : WordAround l.full p.character left word right) :
    d.hover p = .ok (if word.isEmpty then none else d.index.describe (String.ofList word)) := by
  rw [hover_of_wordAt (wordAt_of_around hline h)]
  cases word <;> rfl

/-- Hover fails exactly behind the end of a line that is there. Below the last line and inside of a
line's end there is nothing to show; elsewhere the word around the place is described. -/
theorem hover_by_place (d : Document) (p : Position) :
    (d.hover p = .error .pastLineEnd ↔
      ∃ l, (Text.lines d.text)[p.line]? = some l ∧ l.full.length < p.character) ∧
    ((Text.lines d.text).length ≤ p.line → d.hover p = .ok none) ∧
    ∀ l, (Text.lines d.text)[p.line]? = some l →
      (l.body.length < p.character → p.character ≤ l.full.length → d.hover p = .ok none) ∧
      (p.character ≤ l.body.length → ∃ left word right,
        WordAround l.body p.character left word right ∧
        d.hover p =
          .ok (if word.isEmpty then none else d.index.describe (String.ofList word))) := by
  have hbelow : (Text.lines d.text).length ≤ p.line → d.hover p = .ok none :=
    fun h => hover_of_wordAt (wordAt_below h)
  refine ⟨⟨?_, ?_⟩, hbelow, ?_⟩
  · intro herror
    rcases hline : (Text.lines d.text)[p.line]? with _ | l
    · rw [hbelow (List.getElem?_eq_none_iff.1 hline)] at herror
      cases herror
    · refine ⟨l, rfl, ?_⟩
      by_contra hlength
      obtain ⟨left, word, right, haround⟩ := exists_wordAround (Nat.not_lt.1 hlength)
      rw [hover_of_around hline haround] at herror
      cases herror
  · rintro ⟨l, hline, hlength⟩
    rw [Document.hover, wordAt_past hline hlength]
    rfl
  · intro l hline
    have hending := mem_lines_ending hline
    constructor
    · intro hbody hfull
      exact hover_of_around hline (wordAround_ending hending hbody hfull)
    · intro hbody
      obtain ⟨left, word, right, haround⟩ := exists_wordAround hbody
      exact ⟨left, word, right, haround, hover_of_around hline (haround.withEnding hending)⟩

/-- The text of a native's name and nothing else: behind the name hover fails, and with a line end
behind the name it finds nothing there. -/
theorem hover_behind_clock :
    (Document.ofText? "clock").map (fun d => (d.hover ⟨0, 5⟩, d.hover ⟨0, 6⟩)) =
      some (.ok (some "clock() -> number of seconds since the epoch"), .error .pastLineEnd) ∧
    (Document.ofText? "clock\n").map (fun d => (d.hover ⟨0, 5⟩, d.hover ⟨0, 6⟩)) =
      some (.ok (some "clock() -> number of seconds since the epoch"), .ok none) := by
  decide +kernel

end Editor

end Scriptling
