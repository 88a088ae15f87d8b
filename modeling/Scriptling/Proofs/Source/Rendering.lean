-- Tokens written out and read back. Between two tokens there may stand whatever separates them:
-- blanks, line ends, comments up to the end of their line. No token runs on into a separator, and
-- no separator leaves a trace, so the tokens that are read are those that were written.
import Scriptling.Proofs.Source.Tiling

namespace Scriptling

/-! ## Separators -/

/-- Blanks, line ends and comments, each comment with the end of its line. -/
inductive Filler : List Char → Prop
  | nil : Filler []
  | newline {rest : List Char} (more : Filler rest) : Filler ('\n' :: rest)
  | blank {c : Char} {rest : List Char} (blank : isBlank c = true) (more : Filler rest) :
      Filler (c :: rest)
  | comment {body rest : List Char} (line : '\n' ∉ body) (more : Filler rest) :
      Filler ('#' :: (body ++ '\n' :: rest))

/-- What keeps two tokens apart. -/
structure Separates (text : String) : Prop where
  nonempty : text ≠ ""
  filler : Filler text.toList

/-- A character that starts a separator. -/
def startsFiller (c : Char) : Bool := isBlank c || c == '\n' || c == '#'

theorem Separates.starts {text : String} (h : Separates text) :
    ∃ c rest, text.toList = c :: rest ∧ startsFiller c = true := by
  have hne : text.toList ≠ [] := fun hnil => h.nonempty (String.toList_eq_nil_iff.1 hnil)
  cases htext : text.toList with
  | nil => exact absurd htext hne
  | cons c rest =>
    refine ⟨c, rest, rfl, ?_⟩
    have hfiller := h.filler
    rw [htext] at hfiller
    cases hfiller with
    | newline => rfl
    | blank hblank => simp [startsFiller, hblank]
    | comment => rfl

/-! ## Pieces before a separator -/

namespace Piece

/-- The end of the text, or a separator. -/
def Apart (rest : List Char) : Prop := ∀ c ∈ rest.head?, startsFiller c = true

theorem Apart.ends {rest : List Char} (h : Apart rest) {among : Char → Bool}
    (hamong : ∀ c, startsFiller c = true → among c = false) : Ends among rest :=
  fun c hc => hamong c (h c hc)

theorem Apart.head?_ne {rest : List Char} (h : Apart rest) {c : Char}
    (hc : startsFiller c = false) : rest.head? ≠ some c := by
  intro hhead
  rw [h c hhead] at hc
  cases hc

theorem eq_of_startsFiller {c : Char} (h : startsFiller c = true) :
    c = ' ' ∨ c = '\r' ∨ c = '\t' ∨ c = '\n' ∨ c = '#' := by
  simpa [startsFiller, isBlank, or_assoc] using h

theorem isDigit_of_startsFiller {c : Char} (h : startsFiller c = true) : c.isDigit = false := by
  obtain rfl | rfl | rfl | rfl | rfl := eq_of_startsFiller h <;> rfl

theorem continuesWord_of_startsFiller {c : Char} (h : startsFiller c = true) :
    continuesWord c = false := by
  obtain rfl | rfl | rfl | rfl | rfl := eq_of_startsFiller h <;> decide

/-- A token that is as long as its kind allows still is before a separator. -/
theorem Stands.apart {p : Piece} {rest after : List Char} (h : p.Stands rest)
    (htoken : p.kind?.isSome = true) (hafter : Apart after) : p.Stands after := by
  have hdigits : Ends Char.isDigit after := hafter.ends fun _ => isDigit_of_startsFiller
  cases h with
  | newline | blanks | comment | unclosed | stray => cases htoken
  | quoted hnone => exact .quoted hnone
  | whole hne hall =>
    refine .whole hne hall hdigits fun more hmore => ?_
    exact absurd (congrArg List.head? hmore) (hafter.head?_ne rfl)
  | fraction hne hall hne' hall' => exact .fraction hne hall hne' hall' hdigits
  | word hstarts hall =>
    exact .word hstarts hall (hafter.ends fun _ => continuesWord_of_startsFiller)
  | single hkind => exact .single hkind fun hhead => absurd hhead (hafter.head?_ne rfl)
  | double hkind => exact .double hkind

/-- A piece in its place comes first, and then what follows it. -/
theorem Stands.pieces_append {p : Piece} {rest : List Char} (h : p.Stands rest) :
    pieces (p.text ++ rest) = p :: pieces rest :=
  ((Tiling.cons h (tiling_pieces rest)).eq_pieces).symm

end Piece

/-! ## Separators leave no trace -/

section Filler

variable {α : Type} {f : Piece → Option α}

theorem filterMap_pieces_blank (hblanks : ∀ text, f (.blanks text) = none) {c : Char}
    (hc : isBlank c = true) (rest : List Char) :
    (pieces (c :: rest)).filterMap f = (pieces rest).filterMap f := by
  -- behind the blanks there is the same, however many of them were taken
  have hskip : ∀ {d : Char} {more : List Char}, isBlank d = true →
      (pieces (d :: more)).filterMap f = (pieces (more.dropWhile isBlank)).filterMap f := by
    intro d more hd
    rw [pieces, Piece.scan_of_blank hd, List.filterMap_cons, hblanks]
  rw [hskip hc]
  cases rest with
  | nil => rfl
  | cons d more =>
    cases hd : isBlank d with
    | true => rw [List.dropWhile_cons_of_pos hd, hskip hd]
    | false => rw [List.dropWhile_cons_of_neg (by simp [hd])]

/-- What is read from a text does not depend on a separator before it. -/
theorem Filler.filterMap_pieces (hnewline : f .newline = none)
    (hblanks : ∀ text, f (.blanks text) = none) (hcomment : ∀ body, f (.comment body) = none)
    {filler : List Char} (h : Filler filler) (rest : List Char) :
    (pieces (filler ++ rest)).filterMap f = (pieces rest).filterMap f := by
  have hline : ∀ more, (pieces ('\n' :: more)).filterMap f = (pieces more).filterMap f := by
    intro more
    rw [show pieces ('\n' :: more) = .newline :: pieces more from
      Piece.Stands.newline.pieces_append, List.filterMap_cons, hnewline]
  induction h with
  | nil => rfl
  | newline _ ih => exact (hline _).trans ih
  | blank hblank _ ih => exact (filterMap_pieces_blank hblanks hblank _).trans ih
  | @comment body filler hbody _ ih =>
    have hstands : (Piece.comment body).Stands ('\n' :: (filler ++ rest)) :=
      .comment hbody (by simp [Piece.Ends])
    have hpieces : pieces ('#' :: (body ++ '\n' :: filler) ++ rest) =
        .comment body :: pieces ('\n' :: (filler ++ rest)) := by
      rw [← hstands.pieces_append]
      simp [Piece.text]
    rw [hpieces, List.filterMap_cons, hcomment]
    exact (hline _).trans ih

end Filler

/-! ## What a token is -/

/-- What a token is, wherever it stands. -/
def Token.face (t : Token) : Kind × String × Option Literal := (t.kind, t.lexeme, t.literal)

/-- What the token is that a piece stands for. -/
def Piece.face? (p : Piece) : Option (Kind × String × Option Literal) :=
  (p.token? 0).map Token.face

theorem Piece.map_face_token? (p : Piece) (line : Int) :
    (p.token? line).map Token.face = p.face? := by
  cases p with
  | word text =>
    simp only [face?, token?]
    cases Keyword.ofText? (String.ofList (Piece.word text).text) <;> rfl
  | _ => rfl

theorem Piece.kind?_isSome (p : Piece) : p.kind?.isSome = p.face?.isSome := by
  have h := congrArg Option.isSome (p.token?_eq 0)
  simpa [face?] using h.symm

theorem lex_faces (source : String) :
    (lex source).tokens.map Token.face = (pieces source.toList).filterMap Piece.face? :=
  map_filterMap_placed Piece.map_face_token? 1 _

/-- A token that is read from some source. -/
def Token.IsRead (t : Token) : Prop := ∃ source, t ∈ (lex source).tokens

/-- The piece that a token was read from. It is read again before any separator. -/
theorem Token.IsRead.piece {t : Token} (h : t.IsRead) :
    ∃ p : Piece, p.text = t.lexeme.toList ∧ p.face? = some t.face ∧
      ∀ after, Piece.Apart after → p.Stands after := by
  obtain ⟨source, hmem⟩ := h
  have hface : t.face ∈ (pieces source.toList).filterMap Piece.face? := by
    rw [← lex_faces]
    exact List.mem_map_of_mem hmem
  obtain ⟨p, hp, hpface⟩ := List.mem_filterMap.1 hface
  obtain ⟨rest, hstands⟩ := (tiling_pieces _).stands p hp
  have htoken : p.kind?.isSome = true := by rw [p.kind?_isSome, hpface]; rfl
  refine ⟨p, ?_, hpface, fun after => hstands.apart htoken⟩
  obtain ⟨u, hu, hface⟩ := Option.map_eq_some_iff.1 hpface
  have hlexeme : u.lexeme = t.lexeme := congrArg (·.2.1) hface
  have htext := congrArg (Option.map Prod.snd) (p.token?_eq 0)
  rw [hu] at htext
  cases hkind : p.kind? with
  | none => rw [hkind] at htext; cases htext
  | some k =>
    rw [hkind] at htext
    simp only [Option.map_some, Option.some.injEq] at htext
    rw [← hlexeme, htext, String.toList_ofList]

/-! ## Tokens written out -/

/-- The texts of tokens with separators between them; where these run out, a blank stands. -/
def written : List Token → List String → List Char
  | [], _ => []
  | [t], _ => t.lexeme.toList
  | t :: u :: ts, gaps =>
    t.lexeme.toList ++ ((gaps.headD " ").toList ++ written (u :: ts) gaps.tail)

theorem separates_headD {gaps : List String} (h : ∀ gap ∈ gaps, Separates gap) :
    Separates (gaps.headD " ") := by
  cases gaps with
  | nil => exact ⟨by decide, .blank rfl .nil⟩
  | cons gap gaps => exact h gap List.mem_cons_self

theorem Separates.apart {gap : String} (h : Separates gap) (rest : List Char) :
    Piece.Apart (gap.toList ++ rest) := by
  obtain ⟨c, more, htext, hc⟩ := h.starts
  intro d hd
  rw [htext] at hd
  cases hd
  exact hc

/-- Whatever is read off pieces, separators apart, is read off the tokens that were written. -/
theorem filterMap_pieces_written {α : Type} {f : Piece → Option α} {g : Token → Option α}
    (hnewline : f .newline = none) (hblanks : ∀ text, f (.blanks text) = none)
    (hcomment : ∀ body, f (.comment body) = none)
    (hface : ∀ {p : Piece} {t : Token}, p.face? = some t.face → f p = g t)
    {ts : List Token} (hts : ∀ t ∈ ts, t.IsRead) {gaps : List String}
    (hgaps : ∀ gap ∈ gaps, Separates gap) :
    (pieces (written ts gaps)).filterMap f = ts.filterMap g := by
  induction ts generalizing gaps with
  | nil =>
    rw [written, pieces]
    rfl
  | cons t ts ih =>
    obtain ⟨p, htext, hp, hstands⟩ := (hts t List.mem_cons_self).piece
    cases ts with
    | nil =>
      have hlast := (hstands [] fun c hc => by cases hc).pieces_append
      rw [List.append_nil, htext, pieces] at hlast
      rw [written, hlast, List.filterMap_cons, hface hp]
      rfl
    | cons u ts =>
      have hgap := separates_headD hgaps
      have hfirst := (hstands _ (hgap.apart (written (u :: ts) gaps.tail))).pieces_append
      rw [htext] at hfirst
      rw [written, hfirst, List.filterMap_cons, hface hp,
        hgap.filler.filterMap_pieces hnewline hblanks hcomment,
        ih (fun v hv => hts v (List.mem_cons_of_mem _ hv))
          fun gap hmem => hgaps gap (List.mem_of_mem_tail hmem)]
      rfl

/-- Tokens that were read from any sources, written out with any separators between them, are read
back: the same kinds, texts and values in the same order, then the mark of the end, and no
error. -/
theorem lex_written {ts : List Token} (hts : ∀ t ∈ ts, t.IsRead) {gaps : List String}
    (hgaps : ∀ gap ∈ gaps, Separates gap) :
    let lexed := lex (String.ofList (written ts gaps))
    lexed.errors = [] ∧ lexed.withEnd.map Token.face = ts.map Token.face ++ [(.eof, "", none)] := by
  have hnone : (pieces (written ts gaps)).filterMap Piece.complaint? = [] := by
    rw [filterMap_pieces_written (g := fun _ => none) rfl (fun _ => rfl) (fun _ => rfl) ?_ hts
      hgaps]
    · simp
    · intro p t hp
      cases p <;> first | rfl | cases hp
  have hfaces : (pieces (written ts gaps)).filterMap Piece.face? = ts.map Token.face := by
    rw [filterMap_pieces_written (g := fun t => some t.face) rfl (fun _ => rfl) (fun _ => rfl) id
      hts hgaps]
    exact congrFun List.filterMap_eq_map ts
  constructor
  · have hmessages := lex_errors_eq (String.ofList (written ts gaps))
    rw [String.toList_ofList, hnone] at hmessages
    exact List.map_eq_nil_iff.1 hmessages
  · rw [Lexed.withEnd, List.map_append, lex_faces, String.toList_ofList, hfaces]
    rfl

/-- Tokens of two sources: a number and a point, a string over two lines that holds a hash sign, a
keyword in capitals. -/
def strangeTokens : List Token :=
  (lex "2 . \"a#\nb\"").tokens ++ (lex "AND != x").tokens

/-- A line end, a comment that holds a quote, blanks, and a comment that holds an operator. -/
def strangeGaps : List String := ["\n", "#\"\n", " \t", "\r\n# =\n"]

theorem strangeTokens_written :
    let lexed := lex (String.ofList (written strangeTokens strangeGaps))
    String.ofList (written strangeTokens strangeGaps) =
        "2\n.#\"\n\"a#\nb\" \tAND\r\n# =\n!= x" ∧
      lexed.errors = [] ∧
      lexed.withEnd.map Token.face = strangeTokens.map Token.face ++ [(.eof, "", none)] := by
  have hts : ∀ t ∈ strangeTokens, t.IsRead := by
    intro t ht
    obtain ht | ht := List.mem_append.1 ht
    · exact ⟨_, ht⟩
    · exact ⟨_, ht⟩
  have hgaps : ∀ gap ∈ strangeGaps, Separates gap := by
    have hquote : Filler ['#', '"', '\n'] := @Filler.comment ['"'] [] (by decide) .nil
    have hequal : Filler ['#', ' ', '=', '\n'] := @Filler.comment [' ', '='] [] (by decide) .nil
    unfold strangeGaps
    simp only [List.forall_mem_cons]
    exact ⟨⟨by decide, .newline .nil⟩, ⟨by decide, hquote⟩,
      ⟨by decide, .blank rfl (.blank rfl .nil)⟩, ⟨by decide, .blank rfl (.newline hequal)⟩,
      List.forall_mem_nil _⟩
  obtain ⟨herrors, htokens⟩ := lex_written hts hgaps
  exact ⟨by decide +kernel, herrors, htokens⟩

end Scriptling
