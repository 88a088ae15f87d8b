-- Names in a source. A token is read from a located piece, and a name from a word. Where a source
-- is read without an error, no letter or numeral of any script stands directly beside a name.
import Mathlib.Data.List.Chain
import Scriptling.Proofs.Grammar.Adjacent
import Scriptling.Proofs.Source.Joined
import Scriptling.Proofs.Source.Lines
import Scriptling.Text.Alphanumeric
import Scriptling.Text.Line

namespace Scriptling

/-! ## Characters of names -/

/-- Names are made of ASCII letters, digits and the underscore. -/
theorem toNat_of_continuesWord {c : Char} (h : continuesWord c = true) :
    (0x30 ≤ c.toNat ∧ c.toNat ≤ 0x39) ∨ (0x41 ≤ c.toNat ∧ c.toNat ≤ 0x5a) ∨
      (0x61 ≤ c.toNat ∧ c.toNat ≤ 0x7a) ∨ c = '_' := by
  simp only [continuesWord, Char.isAlphanum] at h
  delta Char.isAlpha Char.isUpper Char.isLower at h
  simp only [Char.isDigit, Bool.or_eq_true, Bool.and_eq_true, decide_eq_true_eq, beq_iff_eq,
    UInt32.le_iff_toNat_le, ge_iff_le] at h
  rcases h with ((h | h) | h) | h
  · exact .inr (.inl h)
  · exact .inr (.inr (.inl h))
  · exact .inl h
  · exact .inr (.inr (.inr h))

theorem inWord_of_continuesWord {c : Char} (h : continuesWord c = true) :
    Text.inWord c = true := by
  have hrange : ∀ r ∈ Text.alphanumericRanges, r.1 ≤ c.toNat → c.toNat ≤ r.2 →
      Text.inWord c = true := by
    intro r hr hlow hhigh
    have hholds : Text.isAlphanumeric c = true :=
      List.any_eq_true.2 ⟨r, hr, by simp [hlow, hhigh]⟩
    simp [Text.inWord, hholds]
  rcases toNat_of_continuesWord h with h | h | h | rfl
  · exact hrange (0x30, 0x39) (by decide) h.1 h.2
  · exact hrange (0x41, 0x5a) (by decide) h.1 h.2
  · exact hrange (0x61, 0x7a) (by decide) h.1 h.2
  · simp [Text.inWord]

theorem endsLine_iff {c : Char} : Text.endsLine c = true ↔
    c.toNat ∈ [0x0a, 0x0b, 0x0c, 0x0d, 0x1c, 0x1d, 0x1e, 0x85, 0x2028, 0x2029] := by
  simp [Text.endsLine]

theorem endsLine_of_continuesWord {c : Char} (h : continuesWord c = true) :
    Text.endsLine c = false := by
  have hcode : 0x1e < c.toNat ∧ c.toNat < 0x85 := by
    rcases toNat_of_continuesWord h with h | h | h | rfl
    · omega
    · omega
    · omega
    · decide
  by_contra hends
  rw [Bool.not_eq_false, endsLine_iff] at hends
  simp only [List.mem_cons, List.not_mem_nil, or_false] at hends
  omega

/-- Blanks, line ends, quotes and hash signs belong to no word. -/
theorem inWord_separators : ∀ c ∈ ['\n', ' ', '\r', '\t', '"', '#'], Text.inWord c = false := by
  intro c hc
  simp only [List.mem_cons, List.not_mem_nil, or_false] at hc
  rcases hc with rfl | rfl | rfl | rfl | rfl | rfl
  all_goals decide +kernel

theorem inWord_of_isBlank {c : Char} (h : isBlank c = true) : Text.inWord c = false := by
  simp only [isBlank, Bool.or_eq_true, beq_iff_eq] at h
  rcases h with (rfl | rfl) | rfl
  all_goals exact inWord_separators _ (by decide)

/-- No character that ends a line of an editor belongs to a word. -/
theorem inWord_of_endsLine {c : Char} (h : Text.endsLine c = true) : Text.inWord c = false := by
  have hall : ∀ n ∈ [0x0a, 0x0b, 0x0c, 0x0d, 0x1c, 0x1d, 0x1e, 0x85, 0x2028, 0x2029],
      Text.inWord (Char.ofNat n) = false := by decide +kernel
  have hcode := hall c.toNat (endsLine_iff.1 h)
  rwa [Char.ofNat_toNat] at hcode

/-- Nor do operators. -/
theorem inWord_of_operator? {c : Char} {k : Kind} (h : operator? c = some k) :
    Text.inWord c = false := by
  unfold operator? at h
  split at h
  case h_16 => cases h
  all_goals decide +kernel

theorem continuesWord_of_startsWord {c : Char} (h : startsWord c = true) :
    continuesWord c = true := by
  simp only [startsWord, Bool.or_eq_true] at h
  rcases h with h | h
  · simp [continuesWord, Char.isAlphanum, h]
  · simp [continuesWord, h]

theorem continuesWord_of_isDigit {c : Char} (h : c.isDigit = true) : continuesWord c = true := by
  simp [continuesWord, Char.isAlphanum, h]

/-! ## The neighbours of a piece -/

namespace Piece

variable {p : Piece} {rest : List Char}

/-- A piece that can be read starts with a character of names or with one of no word. -/
theorem Stands.head_inWord (h : p.Stands rest) (hquiet : p.complaint? = none) :
    ∀ c ∈ p.text.head?, continuesWord c = true ∨ Text.inWord c = false := by
  intro c hc
  cases h with
  | newline | comment | quoted =>
    obtain rfl := Option.some.inj hc
    exact .inr (inWord_separators _ (by decide))
  | blanks hne hall => exact .inr (inWord_of_isBlank (hall c (List.mem_of_mem_head? hc)))
  | whole hne hdigits =>
    exact .inl (continuesWord_of_isDigit (hdigits c (List.mem_of_mem_head? hc)))
  | @fraction digits decimals _ hne hdigits hne' =>
    obtain ⟨d, ds, rfl⟩ := List.exists_cons_of_ne_nil hne
    obtain ⟨e, es, rfl⟩ := List.exists_cons_of_ne_nil hne'
    obtain rfl := Option.some.inj hc
    exact .inl (continuesWord_of_isDigit (hdigits d List.mem_cons_self))
  | word hstarts =>
    obtain rfl := Option.some.inj hc
    exact .inl (continuesWord_of_startsWord hstarts)
  | single hkind =>
    obtain rfl := Option.some.inj hc
    exact .inr (inWord_of_operator? hkind)
  | double hkind =>
    obtain rfl := Option.some.inj hc
    obtain ⟨kind, hkind⟩ := operator?_of_withEqual hkind
    exact .inr (inWord_of_operator? hkind)
  | unclosed | stray => cases hquiet

/-- Before a name, a piece that can be read is a number or ends with a character of no word. -/
theorem Stands.last_inWord {d : Char} (h : p.Stands rest) (hquiet : p.complaint? = none)
    (hd : d ∈ rest.head?) (hname : continuesWord d = true) :
    ∀ c ∈ p.text.getLast?, p.kind? = some .number ∨ Text.inWord c = false := by
  intro c hc
  cases h with
  | newline =>
    obtain rfl := Option.some.inj hc
    exact .inr (inWord_separators _ (by decide))
  | blanks hne hall => exact .inr (inWord_of_isBlank (hall c (List.mem_of_getLast? hc)))
  | comment hnone hends =>
    -- a comment goes on to the end of its line
    have hnewline : d = '\n' := by simpa using hends d hd
    rw [hnewline] at hname
    exact absurd hname (by decide)
  | quoted =>
    simp only [text, List.getLast?_concat, Option.mem_def, Option.some.injEq] at hc
    rw [← hc]
    exact .inr (inWord_separators _ (by decide))
  | whole | fraction => exact .inl rfl
  | word hstarts htail hends =>
    -- a word does not stop before a character of names
    rw [hends d hd] at hname
    cases hname
  | single hkind =>
    obtain rfl := Option.some.inj hc
    exact .inr (inWord_of_operator? hkind)
  | double hkind =>
    obtain rfl := Option.some.inj hc
    exact .inr (inWord_of_operator? (k := .equal) rfl)
  | unclosed | stray => cases hquiet

theorem Stands.text_ne_nil (h : p.Stands rest) : p.text ≠ [] := by
  obtain ⟨c, tail, -, hscan⟩ := h.scan
  have hne := scan_text_ne_nil c tail
  rwa [hscan] at hne

/-- Only a word is a name. -/
theorem Stands.eq_word (h : p.Stands rest) (hkind : p.kind? = some .identifier) :
    ∃ name, p = .word name := by
  cases h with
  | word => exact ⟨_, rfl⟩
  | @single c kind _ hoperator =>
    obtain rfl := Option.some.inj hkind
    unfold operator? at hoperator
    split at hoperator <;> cases hoperator
  | @double c kind _ hoperator =>
    obtain rfl := Option.some.inj hkind
    unfold operatorWithEqual? at hoperator
    split at hoperator <;> cases hoperator
  | _ => cases hkind

/-- All of a word's characters are characters of names. -/
theorem Stands.word_continues {name : List Char} (h : (Piece.word name).Stands rest) :
    ∀ c ∈ name, continuesWord c = true := by
  cases h with
  | word hstarts htail _ =>
    exact List.forall_mem_cons.2 ⟨continuesWord_of_startsWord hstarts, htail⟩

end Piece

/-! ## Pieces behind others -/

theorem Tiling.behind {cs : List Char} {ps qs : List Piece} (h : Tiling cs (ps ++ qs)) :
    Tiling (qs.flatMap Piece.text) qs := by
  induction ps generalizing cs with
  | nil =>
    have htext := h.text_eq
    rw [List.nil_append] at h htext
    rwa [htext]
  | cons p ps ih =>
    cases h with
    | cons _ htail => exact ih htail

theorem Tiling.stands_first {cs : List Char} {p : Piece} {ps : List Piece}
    (h : Tiling cs (p :: ps)) : p.Stands (ps.flatMap Piece.text) := by
  cases h with
  | cons hp htail =>
    rw [htail.text_eq]
    exact hp

section Cut

variable {cs : List Char} {before after : List Piece} {p : Piece}

theorem text_of_cut (h : pieces cs = before ++ p :: after) :
    cs = before.flatMap Piece.text ++ p.text ++ after.flatMap Piece.text := by
  rw [← text_pieces cs, h]
  simp

theorem stands_of_cut (h : pieces cs = before ++ p :: after) :
    p.Stands (after.flatMap Piece.text) := by
  have htiling := tiling_pieces cs
  rw [h] at htiling
  exact htiling.behind.stands_first

end Cut

/-- A located piece stands where the pieces before it end. -/
theorem mem_located {ps : List Piece} {start : Nat} {l : Located} (h : l ∈ located start ps) :
    ∃ before after, ps = before ++ l.piece :: after ∧
      l.start = start + (before.flatMap Piece.text).length ∧
      l.stop = l.start + l.piece.text.length := by
  induction ps generalizing start with
  | nil => simp [located] at h
  | cons p ps ih =>
    rcases List.mem_cons.1 h with rfl | h
    · exact ⟨[], ps, rfl, rfl, rfl⟩
    · obtain ⟨before, after, hps, hstart, hstop⟩ := ih h
      refine ⟨p :: before, after, by rw [hps]; rfl, ?_, hstop⟩
      rw [hstart, List.flatMap_cons, List.length_append, Nat.add_assoc]

/-! ## Tokens in their places -/

/-- The tokens of a source, each with the piece that it is read from. -/
def locatedTokens (source : String) : List (Token × Located) :=
  (located 0 (pieces source.toList)).filterMap fun l =>
    (l.piece.token? (lineAt source.toList l.stop)).map (·, l)

theorem map_fst_locatedTokens (source : String) :
    (locatedTokens source).map Prod.fst = (lex source).tokens := by
  rw [lex, (tiling_pieces source.toList).placed_eq, locatedTokens, List.map_filterMap,
    List.filterMap_map]
  refine List.filterMap_congr fun l _ => ?_
  show ((l.piece.token? (lineAt source.toList l.stop)).map (·, l)).map Prod.fst =
    l.piece.token? (lineAt source.toList l.stop)
  cases l.piece.token? (lineAt source.toList l.stop) <;> rfl

theorem mem_locatedTokens {source : String} {t : Token} {l : Located} :
    (t, l) ∈ locatedTokens source ↔
      l ∈ located 0 (pieces source.toList) ∧
        l.piece.token? (lineAt source.toList l.stop) = some t := by
  simp only [locatedTokens, List.mem_filterMap, Option.map_eq_some_iff, Prod.mk.injEq]
  constructor
  · rintro ⟨l', hl, t', ht, rfl, rfl⟩
    exact ⟨hl, ht⟩
  · rintro ⟨hl, ht⟩
    exact ⟨l, hl, t, ht, rfl, rfl⟩

/-- Where a name stands in a source: the pieces before and behind its word, and its place. -/
structure NameAt (source : String) (t : Token) (l : Located) (before : List Piece)
    (name : List Char) (after : List Piece) : Prop where
  cut : pieces source.toList = before ++ .word name :: after
  kind : (Piece.word name).kind? = some .identifier
  lexeme : t.lexeme = String.ofList name
  line : t.line = 1 + (before.flatMap Piece.text).count '\n'
  start : l.start = (before.flatMap Piece.text).length
  stop : l.stop = l.start + name.length

section Names

variable {source : String} {t : Token} {l : Located} {before after : List Piece}
  {name : List Char}

/-- Every name of a source stands somewhere. -/
theorem exists_nameAt (h : (t, l) ∈ locatedTokens source) (ht : t.kind = .identifier) :
    ∃ before name after, NameAt source t l before name after := by
  obtain ⟨hl, htoken⟩ := mem_locatedTokens.1 h
  obtain ⟨before, after, hpieces, hstart, hstop⟩ := mem_located hl
  rw [Nat.zero_add] at hstart
  have hface := l.piece.token?_line (lineAt source.toList l.stop)
  rw [htoken, Option.map_some, ht] at hface
  obtain ⟨kind, hkind, hread⟩ := Option.map_eq_some_iff.1 hface.symm
  simp only [Prod.mk.injEq] at hread
  obtain ⟨rfl, hlexeme, hline⟩ := hread
  obtain ⟨name, hname⟩ := (stands_of_cut hpieces).eq_word hkind
  rw [hname] at hpieces hkind hlexeme hstop
  refine ⟨before, name, after, hpieces, hkind, hlexeme.symm, ?_, hstart, hstop⟩
  -- no line ends inside of a name
  have hnewline : '\n' ∉ name := by
    intro hmem
    exact absurd ((stands_of_cut hpieces).word_continues '\n' hmem) (by decide)
  have htext : source.toList = before.flatMap Piece.text ++ name ++ after.flatMap Piece.text :=
    text_of_cut hpieces
  have hplace := lineAt_append (before.flatMap Piece.text ++ name) (after.flatMap Piece.text)
  rw [← htext, List.length_append, List.count_append, List.count_eq_zero_of_not_mem hnewline,
    Nat.add_zero] at hplace
  rw [← hline, hstop, hstart]
  exact hplace

theorem NameAt.text (h : NameAt source t l before name after) :
    source.toList = before.flatMap Piece.text ++ name ++ after.flatMap Piece.text :=
  text_of_cut h.cut

theorem NameAt.slice (h : NameAt source t l before name after) :
    (source.toList.take l.stop).drop l.start = name := by
  rw [h.text, h.stop, h.start, ← List.length_append, List.take_left, List.drop_left]

theorem NameAt.stands (h : NameAt source t l before name after) :
    (Piece.word name).Stands (after.flatMap Piece.text) := stands_of_cut h.cut

theorem NameAt.ne_nil (h : NameAt source t l before name after) : name ≠ [] := by
  cases h.stands with
  | word => simp

theorem NameAt.continues (h : NameAt source t l before name after) :
    ∀ c ∈ name, continuesWord c = true := h.stands.word_continues

/-- In a program no number is directly before a name. -/
theorem NameAt.last_kind {q : Piece} {others : List Piece}
    (h : NameAt source t l (others ++ [q]) name after)
    (hspaced : Grammar.Spaced (lex source).tokens) : q.kind? ≠ some .number := by
  intro hnumber
  have hkinds : (lex source).tokens.map Token.kind =
      (pieces source.toList).filterMap Piece.kind? := by
    have hfaces := congrArg (List.map Prod.fst) (lex_tokens_eq source)
    rw [List.map_map, List.map_filterMap] at hfaces
    simpa [Function.comp_def] using hfaces
  have hchain : ((lex source).tokens.map Token.kind).IsChain
      fun k k' => k = .number → k' ≠ .identifier := by
    rw [List.isChain_map]
    exact hspaced
  rw [hkinds, h.cut, List.append_assoc, List.singleton_append, List.filterMap_append,
    List.filterMap_cons_some hnumber, List.filterMap_cons_some h.kind] at hchain
  exact (List.isChain_append_cons_cons.1 hchain).2.1 rfl rfl

/-- Where a source is read without an error, no word goes on before or behind a name. -/
theorem NameAt.apart (h : NameAt source t l before name after)
    (hquiet : (lex source).errors = []) (hspaced : Grammar.Spaced (lex source).tokens) :
    (∀ c ∈ (before.flatMap Piece.text).getLast?, Text.inWord c = false) ∧
      ∀ c ∈ (after.flatMap Piece.text).head?, Text.inWord c = false := by
  have hreadable : ∀ p ∈ before ++ .word name :: after, p.complaint? = none := by
    rw [← h.cut]
    exact lex_quiet_iff.1 hquiet
  constructor
  · intro c hc
    rcases List.eq_nil_or_concat' before with rfl | ⟨others, q, rfl⟩
    · simp at hc
    have hq : q.Stands ((Piece.word name :: after).flatMap Piece.text) :=
      stands_of_cut (h.cut.trans (List.append_assoc _ _ _))
    obtain ⟨d, ds, hname⟩ := List.exists_cons_of_ne_nil h.ne_nil
    have hd : d ∈ ((Piece.word name :: after).flatMap Piece.text).head? := by
      simp [Piece.text, hname]
    rw [List.flatMap_append, List.flatMap_singleton,
      List.getLast?_append_of_ne_nil _ hq.text_ne_nil] at hc
    have hlast := hq.last_inWord (hreadable q (by simp)) hd (h.continues d (by simp [hname])) c hc
    exact hlast.resolve_left (h.last_kind hspaced)
  · intro c hc
    cases after with
    | nil => simp at hc
    | cons q after =>
      have hq : q.Stands (after.flatMap Piece.text) :=
        stands_of_cut (h.cut.trans (List.append_cons _ _ _))
      have hends : continuesWord c = false := by
        cases h.stands with
        | word _ _ hends => exact hends c hc
      rw [List.flatMap_cons, List.head?_append_of_ne_nil _ hq.text_ne_nil] at hc
      have hhead := hq.head_inWord (hreadable q (by simp)) c hc
      exact hhead.resolve_left (by simp [hends])

end Names

end Scriptling
