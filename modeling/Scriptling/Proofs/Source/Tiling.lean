-- The pieces of a source tile it. `Stands` says, without running a scan, when a piece is as
-- long as its kind allows; every text has exactly one tiling by such pieces, the one that
-- `pieces` finds, and the tokens and errors of a source are read off that tiling.
import Mathlib.Data.List.TakeWhile
import Scriptling.Source.Lexed

namespace Scriptling

namespace Piece

/-! ## Pieces in their place -/

/-- No character of a class follows: `rest` is empty or starts with another character. -/
def Ends (among : Char → Bool) (rest : List Char) : Prop := ∀ c ∈ rest.head?, among c = false

/-- A piece that is well formed and cannot be made longer, where `rest` follows it. -/
inductive Stands : Piece → List Char → Prop
  | newline {rest : List Char} : Stands newline rest
  | blanks {text rest : List Char} : text ≠ [] → (∀ c ∈ text, isBlank c = true) →
      Ends isBlank rest → Stands (blanks text) rest
  /-- A comment runs up to the next line end, or to the end of the text. -/
  | comment {body rest : List Char} : '\n' ∉ body → Ends (· ≠ '\n') rest →
      Stands (comment body) rest
  | quoted {body rest : List Char} : '"' ∉ body → Stands (quoted body) rest
  /-- A quote stays open only if no other quote follows anywhere. -/
  | unclosed {body : List Char} : '"' ∉ body → Stands (unclosed body) []
  /-- A number without a point: a point that follows has no digit after it. -/
  | whole {digits rest : List Char} : digits ≠ [] → (∀ c ∈ digits, c.isDigit = true) →
      Ends Char.isDigit rest → (∀ after, rest = '.' :: after → Ends Char.isDigit after) →
      Stands (number digits []) rest
  | fraction {digits decimals rest : List Char} :
      digits ≠ [] → (∀ c ∈ digits, c.isDigit = true) →
      decimals ≠ [] → (∀ c ∈ decimals, c.isDigit = true) →
      Ends Char.isDigit rest → Stands (number digits decimals) rest
  | word {c : Char} {tail rest : List Char} : startsWord c = true →
      (∀ d ∈ tail, continuesWord d = true) → Ends continuesWord rest →
      Stands (word (c :: tail)) rest
  /-- One character is an operator only where two do not make one. -/
  | single {c : Char} {kind : Kind} {rest : List Char} : operator? c = some kind →
      (rest.head? = some '=' → operatorWithEqual? c = none) → Stands (operator [c] kind) rest
  | double {c : Char} {kind : Kind} {rest : List Char} : operatorWithEqual? c = some kind →
      Stands (operator [c, '='] kind) rest
  /-- A stray character starts no other piece. -/
  | stray {c : Char} {rest : List Char} : c ≠ '\n' → isBlank c = false → c ≠ '#' → c ≠ '"' →
      c.isDigit = false → startsWord c = false → operator? c = none → Stands (stray c) rest

/-! ## A scan finds a piece in its place -/

theorem ends_dropWhile (among : Char → Bool) (cs : List Char) :
    Ends among (cs.dropWhile among) := by
  intro c hc
  have h := List.head?_dropWhile_not among cs
  rw [Option.mem_def.1 hc] at h
  simpa using h

theorem forall_takeWhile (among : Char → Bool) (cs : List Char) :
    ∀ c ∈ cs.takeWhile among, among c = true := by
  intro c hc
  exact List.mem_takeWhile_imp hc

theorem not_mem_takeWhile_ne (x : Char) (cs : List Char) : x ∉ cs.takeWhile (· ≠ x) := by
  intro h
  simpa using List.mem_takeWhile_imp h

theorem scanString_stands (rest : List Char) : (scanString rest).1.Stands (scanString rest).2 := by
  unfold scanString
  split
  next h =>
    apply Stands.unclosed
    intro hq
    have := List.dropWhile_eq_nil_iff.1 h '"' hq
    simp at this
  next => exact .quoted (not_mem_takeWhile_ne _ _)

theorem scanNumber_stands {cs : List Char} (h : cs.takeWhile Char.isDigit ≠ []) :
    (scanNumber cs).1.Stands (scanNumber cs).2 := by
  have hdigits := forall_takeWhile Char.isDigit cs
  have hends := ends_dropWhile Char.isDigit cs
  unfold scanNumber
  dsimp only
  split
  next after hrest =>
    split
    next hnone =>
      refine .whole h hdigits hends ?_
      intro after' hafter c hc
      rw [hrest] at hafter
      cases hafter
      -- a digit after the point would have been taken
      cases after with
      | nil => simp at hc
      | cons d ds =>
        have hd : d = c := by simpa using hc
        cases hb : d.isDigit with
        | false => rw [← hd, hb]
        | true => simp [hb] at hnone
    next hsome =>
      exact .fraction h hdigits hsome (forall_takeWhile _ _) (ends_dropWhile _ _)
  next hrest =>
    refine .whole h hdigits hends ?_
    intro after hafter
    exact absurd hafter (hrest after)

theorem operator?_of_withEqual {c : Char} {kind : Kind} (h : operatorWithEqual? c = some kind) :
    ∃ single, operator? c = some single := by
  unfold operatorWithEqual? at h
  split at h
  · exact ⟨.bang, rfl⟩
  · exact ⟨.equal, rfl⟩
  · exact ⟨.greater, rfl⟩
  · exact ⟨.less, rfl⟩
  · cases h

/-- The first piece of a text stands before what follows it. -/
theorem scan_stands (c : Char) (rest : List Char) : (scan c rest).1.Stands (scan c rest).2 := by
  unfold scan
  split
  next => exact .newline
  next hline =>
  split
  next h =>
    refine .blanks (by simp) ?_ (ends_dropWhile _ _)
    intro d hd
    rcases List.mem_cons.1 hd with rfl | hd
    · exact h
    · exact forall_takeWhile _ _ _ hd
  next hblank =>
  split
  next => exact .comment (not_mem_takeWhile_ne _ _) (ends_dropWhile _ _)
  next hhash =>
  split
  next => exact scanString_stands rest
  next hquote =>
  split
  next h => exact scanNumber_stands (by simp [h])
  next hdigit =>
  split
  next h => exact .word h (forall_takeWhile _ _) (ends_dropWhile _ _)
  next hword =>
    unfold scanOperator
    split
    next kind after hkind => exact .double hkind
    next hnot =>
      split
      next kind hkind =>
        refine .single hkind ?_
        intro hhead
        cases hdouble : operatorWithEqual? c with
        | none => rfl
        | some double =>
          obtain ⟨after, rfl⟩ := List.head?_eq_some_iff.1 hhead
          exact absurd rfl (hnot double after hdouble)
      next hnone =>
        exact .stray hline (by simpa using hblank) hhash hquote (by simpa using hdigit)
          (by simpa using hword) hnone

/-! ## A piece in its place is found by a scan -/

theorem takeWhile_of_ends {among : Char → Bool} {body rest : List Char}
    (hbody : ∀ c ∈ body, among c = true) (hrest : Ends among rest) :
    (body ++ rest).takeWhile among = body ∧ (body ++ rest).dropWhile among = rest := by
  rw [List.takeWhile_append_of_pos hbody, List.dropWhile_append_of_pos hbody]
  cases rest with
  | nil => simp
  | cons c cs =>
    have hc := hrest c rfl
    simp [hc]

theorem forall_ne_of_not_mem {x : Char} {body : List Char} (h : x ∉ body) :
    ∀ c ∈ body, (decide (c ≠ x)) = true := by
  intro c hc
  have : c ≠ x := by rintro rfl; exact h hc
  simpa using this

theorem scanString_quoted {body rest : List Char} (h : '"' ∉ body) :
    scanString (body ++ '"' :: rest) = (quoted body, rest) := by
  have hquote : Ends (· ≠ '"') ('"' :: rest) := by simp [Ends]
  obtain ⟨htake, hdrop⟩ := takeWhile_of_ends (forall_ne_of_not_mem h) hquote
  unfold scanString
  rw [hdrop, htake]

theorem scanString_unclosed {body : List Char} (h : '"' ∉ body) :
    scanString body = (unclosed body, []) := by
  have hdrop := List.dropWhile_eq_nil_iff.2 (forall_ne_of_not_mem h)
  unfold scanString
  rw [hdrop]

theorem scanNumber_whole {digits rest : List Char} (hdigits : ∀ c ∈ digits, c.isDigit = true)
    (hrest : Ends Char.isDigit rest)
    (hpoint : ∀ after, rest = '.' :: after → Ends Char.isDigit after) :
    scanNumber (digits ++ rest) = (number digits [], rest) := by
  obtain ⟨htake, hdrop⟩ := takeWhile_of_ends hdigits hrest
  unfold scanNumber
  dsimp only
  rw [htake, hdrop]
  split
  next after =>
    have hafter : after.takeWhile Char.isDigit = [] :=
      (takeWhile_of_ends (List.forall_mem_nil _) (hpoint after rfl)).1
    rw [hafter]
  next => rfl

theorem scanNumber_fraction {digits decimals rest : List Char}
    (hdigits : ∀ c ∈ digits, c.isDigit = true) (hne : decimals ≠ [])
    (hdecimals : ∀ c ∈ decimals, c.isDigit = true) (hrest : Ends Char.isDigit rest) :
    scanNumber (digits ++ '.' :: (decimals ++ rest)) = (number digits decimals, rest) := by
  have hpoint : Ends Char.isDigit ('.' :: (decimals ++ rest)) := by simp [Ends]
  obtain ⟨htake, hdrop⟩ := takeWhile_of_ends hdigits hpoint
  obtain ⟨htake', hdrop'⟩ := takeWhile_of_ends hdecimals hrest
  unfold scanNumber
  dsimp only
  simp only [htake, hdrop, htake', hdrop']

/-- The classes of the characters that start a piece do not overlap. -/
theorem scan_of_operator {c : Char} {kind : Kind} (h : operator? c = some kind) (rest : List Char) :
    scan c rest = scanOperator c rest := by
  unfold operator? at h
  split at h <;> first | rfl | cases h

theorem scan_of_digit {c : Char} (h : c.isDigit = true) (rest : List Char) :
    scan c rest = scanNumber (c :: rest) := by
  have hline : c ≠ '\n' := by rintro rfl; simp at h
  have hhash : c ≠ '#' := by rintro rfl; simp at h
  have hquote : c ≠ '"' := by rintro rfl; simp at h
  have hblank : isBlank c = false := by
    by_contra hb
    simp only [isBlank, Bool.or_eq_true, beq_iff_eq, Bool.not_eq_false] at hb
    rcases hb with (rfl | rfl) | rfl <;> simp at h
  simp [scan, hline, hhash, hquote, hblank, h]

theorem scan_of_word {c : Char} (h : startsWord c = true) (rest : List Char) :
    scan c rest = (word (c :: rest.takeWhile continuesWord), rest.dropWhile continuesWord) := by
  have hline : c ≠ '\n' := by rintro rfl; revert h; decide
  have hhash : c ≠ '#' := by rintro rfl; revert h; decide
  have hquote : c ≠ '"' := by rintro rfl; revert h; decide
  have hblank : isBlank c = false := by
    by_contra hb
    simp only [isBlank, Bool.or_eq_true, beq_iff_eq, Bool.not_eq_false] at hb
    rcases hb with (rfl | rfl) | rfl <;> revert h <;> decide
  have hdigit : c.isDigit = false := by
    simp only [startsWord, Bool.or_eq_true, beq_iff_eq] at h
    rcases h with h | rfl
    · delta Char.isAlpha Char.isUpper Char.isLower at h
      simp only [Bool.or_eq_true, Bool.and_eq_true, decide_eq_true_eq, UInt32.le_iff_toNat_le,
        ge_iff_le] at h
      simp only [Char.isDigit, Bool.and_eq_false_iff, decide_eq_false_iff_not,
        UInt32.le_iff_toNat_le, ge_iff_le]
      have h9 : ('9' : Char).val.toNat = 57 := rfl
      have hA : ('A' : Char).val.toNat = 65 := rfl
      have ha : ('a' : Char).val.toNat = 97 := rfl
      omega
    · rfl
  simp [scan, hline, hhash, hquote, hblank, hdigit, h]

theorem scan_of_blank {c : Char} (h : isBlank c = true) (rest : List Char) :
    scan c rest = (blanks (c :: rest.takeWhile isBlank), rest.dropWhile isBlank) := by
  have hline : c ≠ '\n' := by rintro rfl; revert h; decide
  simp [scan, hline, h]

/-- A piece that stands before `rest` is what a scan finds there. -/
theorem Stands.scan {p : Piece} {rest : List Char} (h : p.Stands rest) :
    ∃ c tail, p.text ++ rest = c :: tail ∧ Piece.scan c tail = (p, rest) := by
  cases h with
  | newline => exact ⟨'\n', rest, rfl, rfl⟩
  | @blanks text _ hne hall hends =>
    obtain ⟨c, cs, rfl⟩ := List.exists_cons_of_ne_nil hne
    have hcs : ∀ d ∈ cs, isBlank d = true := fun d hd => hall d (List.mem_cons_of_mem _ hd)
    obtain ⟨htake, hdrop⟩ := takeWhile_of_ends hcs hends
    refine ⟨c, cs ++ rest, rfl, ?_⟩
    rw [scan_of_blank (hall c List.mem_cons_self), htake, hdrop]
  | @comment body _ hbody hends =>
    obtain ⟨htake, hdrop⟩ := takeWhile_of_ends (forall_ne_of_not_mem hbody) hends
    refine ⟨'#', body ++ rest, rfl, ?_⟩
    calc Piece.scan '#' (body ++ rest)
        = (Piece.comment ((body ++ rest).takeWhile (· ≠ '\n')),
            (body ++ rest).dropWhile (· ≠ '\n')) := rfl
      _ = (Piece.comment body, rest) := by rw [htake, hdrop]
  | @quoted body _ hbody =>
    exact ⟨'"', body ++ '"' :: rest, by simp [text], scanString_quoted hbody⟩
  | @unclosed body hbody => exact ⟨'"', body, by simp [text], scanString_unclosed hbody⟩
  | @whole digits _ hne hdigits hends hpoint =>
    obtain ⟨c, cs, rfl⟩ := List.exists_cons_of_ne_nil hne
    refine ⟨c, cs ++ rest, rfl, ?_⟩
    rw [scan_of_digit (hdigits c List.mem_cons_self)]
    exact scanNumber_whole hdigits hends hpoint
  | @fraction digits decimals _ hne hdigits hne' hdecimals hends =>
    obtain ⟨c, cs, rfl⟩ := List.exists_cons_of_ne_nil hne
    obtain ⟨d, ds, rfl⟩ := List.exists_cons_of_ne_nil hne'
    refine ⟨c, cs ++ '.' :: (d :: ds ++ rest), by simp [text], ?_⟩
    rw [scan_of_digit (hdigits c List.mem_cons_self)]
    exact scanNumber_fraction hdigits hne' hdecimals hends
  | @word c tail _ hc htail hends =>
    obtain ⟨htake, hdrop⟩ := takeWhile_of_ends htail hends
    refine ⟨c, tail ++ rest, rfl, ?_⟩
    rw [scan_of_word hc, htake, hdrop]
  | @single c kind _ hkind hequal =>
    refine ⟨c, rest, rfl, ?_⟩
    rw [scan_of_operator hkind]
    unfold scanOperator
    split
    next kind' after hdouble =>
      rw [hequal rfl] at hdouble
      cases hdouble
    next => rw [hkind]
  | @double c kind _ hkind =>
    obtain ⟨single, hsingle⟩ := operator?_of_withEqual hkind
    refine ⟨c, '=' :: rest, rfl, ?_⟩
    rw [scan_of_operator hsingle]
    simp [scanOperator, hkind]
  | @stray c _ hline hblank hhash hquote hdigit hword hnone =>
    refine ⟨c, rest, rfl, ?_⟩
    have hdouble : operatorWithEqual? c = none := by
      cases hk : operatorWithEqual? c with
      | none => rfl
      | some kind =>
        obtain ⟨single, hsingle⟩ := operator?_of_withEqual hk
        rw [hnone] at hsingle
        cases hsingle
    simp [Piece.scan, scanOperator, hline, hblank, hhash, hquote, hdigit, hword, hnone, hdouble]

end Piece

/-! ## Tilings -/

/-- A text cut into pieces, each of them as long as its kind allows. -/
inductive Tiling : List Char → List Piece → Prop
  | nil : Tiling [] []
  | cons {p : Piece} {rest : List Char} {ps : List Piece} :
      p.Stands rest → Tiling rest ps → Tiling (p.text ++ rest) (p :: ps)

theorem tiling_pieces (cs : List Char) : Tiling cs (pieces cs) := by
  fun_induction pieces cs with
  | case1 => exact .nil
  | case2 c rest first ih =>
    have h := Tiling.cons (Piece.scan_stands c rest) ih
    rwa [Piece.scan_text] at h

/-- A text has one tiling only. -/
theorem Tiling.eq_pieces {cs : List Char} {ps : List Piece} (h : Tiling cs ps) :
    ps = pieces cs := by
  induction h with
  | nil => rw [pieces]
  | @cons p rest ps hp _ ih =>
    obtain ⟨c, tail, htext, hscan⟩ := hp.scan
    rw [htext, pieces, hscan, ih]

theorem Tiling.text_eq {cs : List Char} {ps : List Piece} (h : Tiling cs ps) :
    ps.flatMap Piece.text = cs := by
  rw [h.eq_pieces, text_pieces]

theorem Tiling.stands {cs : List Char} {ps : List Piece} (h : Tiling cs ps) :
    ∀ p ∈ ps, ∃ rest, p.Stands rest := by
  induction h with
  | nil => exact List.forall_mem_nil _
  | cons hp _ ih => exact List.forall_mem_cons.2 ⟨⟨_, hp⟩, ih⟩

/-! ## What the pieces become -/

namespace Piece

/-- The kind of the token that a piece is, if it is one. -/
def kind? : Piece → Option Kind
  | quoted _ => some .string
  | number .. => some .number
  | word text => some ((Keyword.ofText? (String.ofList text)).elim .identifier .keyword)
  | operator _ kind => some kind
  | newline | blanks _ | comment _ | unclosed _ | stray _ => none

/-- What is said about a piece that cannot be read. -/
def complaint? : Piece → Option String
  | stray _ => some "Unexpected character."
  | unclosed _ => some "Unterminated string."
  | _ => none

theorem token?_eq (p : Piece) (line : Int) :
    (p.token? line).map (fun t => (t.kind, t.lexeme)) =
      p.kind?.map (fun k => (k, String.ofList p.text)) := by
  cases p with
  | word text =>
    simp only [token?, kind?, Piece.text]
    cases Keyword.ofText? (String.ofList text) <;> rfl
  | _ => rfl

theorem error?_eq (p : Piece) (line : Int) :
    (p.error? line).map (fun e => e.problem.message) = p.complaint? := by
  cases p <;> rfl

/-- No piece is a mark of the end. -/
theorem Stands.kind?_ne_eof {p : Piece} {rest : List Char} (h : p.Stands rest) :
    p.kind? ≠ some .eof := by
  cases h with
  | @word c tail =>
    simp only [kind?]
    cases Keyword.ofText? (String.ofList (c :: tail)) <;> simp
  | @single c kind _ hkind =>
    rintro ⟨⟩
    unfold operator? at hkind
    split at hkind <;> cases hkind
  | @double c kind _ hkind =>
    rintro ⟨⟩
    unfold operatorWithEqual? at hkind
    split at hkind <;> cases hkind
  | _ => simp [kind?]

end Piece

/-- Where a piece stands has no say in what it becomes, its line apart. -/
theorem map_filterMap_placed {α β : Type} {f : Piece → Int → Option α} {g : α → β}
    {h : Piece → Option β} (hf : ∀ p line, (f p line).map g = h p) (line : Int) (ps : List Piece) :
    ((placed line ps).1.filterMap fun q => f q.1 q.2).map g = ps.filterMap h := by
  induction ps generalizing line with
  | nil => rfl
  | cons p ps ih =>
    rw [placed_cons, List.filterMap_cons, List.filterMap_cons, ← hf p (p.lineBehind line)]
    cases f p (p.lineBehind line) with
    | none => exact ih _
    | some a => exact congrArg (g a :: ·) (ih _)

theorem lex_tokens_eq (source : String) :
    (lex source).tokens.map (fun t => (t.kind, t.lexeme)) =
      (pieces source.toList).filterMap fun p => p.kind?.map fun k => (k, String.ofList p.text) :=
  map_filterMap_placed Piece.token?_eq 1 _

theorem lex_errors_eq (source : String) :
    (lex source).errors.map (fun e => e.problem.message) =
      (pieces source.toList).filterMap Piece.complaint? :=
  map_filterMap_placed Piece.error?_eq 1 _

theorem lex_kind_ne_eof {source : String} {t : Token} (ht : t ∈ (lex source).tokens) :
    t.kind ≠ .eof := by
  intro heof
  have hmem : (t.kind, t.lexeme) ∈ (lex source).tokens.map fun t => (t.kind, t.lexeme) :=
    List.mem_map_of_mem ht
  rw [lex_tokens_eq, List.mem_filterMap] at hmem
  obtain ⟨p, hp, hkind⟩ := hmem
  obtain ⟨k, hk, hpair⟩ := Option.map_eq_some_iff.1 hkind
  have hkeof : k = .eof := heof ▸ congrArg Prod.fst hpair
  obtain ⟨rest, hstands⟩ := (tiling_pieces _).stands p hp
  exact hstands.kind?_ne_eof (hkeof ▸ hk)

/-- Every source has one tiling, and reading the source gives what the tiling holds: its tokens
in order and a mark of the end after them, and an error for each piece that cannot be read. -/
theorem lex_reads_only_tiling (source : String) :
    ∃ ps : List Piece, Tiling source.toList ps ∧ (∀ qs, Tiling source.toList qs → qs = ps) ∧
      ps.flatMap Piece.text = source.toList ∧
      (lex source).withEnd.map (fun t => (t.kind, t.lexeme)) =
        (ps.filterMap fun p => p.kind?.map fun k => (k, String.ofList p.text)) ++ [(.eof, "")] ∧
      (∀ t ∈ (lex source).tokens, t.kind ≠ .eof) ∧
      (lex source).errors.map (fun e => e.problem.message) = ps.filterMap Piece.complaint? := by
  have htiling := tiling_pieces source.toList
  refine ⟨pieces source.toList, htiling, fun qs hqs => hqs.eq_pieces, htiling.text_eq, ?_,
    fun t ht => lex_kind_ne_eof ht, lex_errors_eq source⟩
  rw [Lexed.withEnd, List.map_append, lex_tokens_eq]
  rfl

end Scriptling
