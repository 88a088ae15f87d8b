-- The lines of a text, as an editor cuts it and as the language numbers it. An editor ends a line
-- at more characters than a line feed; where a text holds none of the others, the two agree.
import Mathlib.Data.List.Basic
import Mathlib.Data.List.Induction
import Scriptling.Editor.Edit
import Scriptling.Proofs.Source.Tiling

namespace Scriptling.Text

/-! ## The lines of an editor -/

/-- No character of a text ends a line. -/
def Unbroken (cs : List Char) : Prop := ∀ c ∈ cs, endsLine c = false

theorem Unbroken.not_mem_newline {cs : List Char} (h : Unbroken cs) : '\n' ∉ cs := by
  intro hmem
  cases h '\n' hmem

theorem Unbroken.reverse {cs : List Char} (h : Unbroken cs) : Unbroken cs.reverse :=
  fun c hc => h c (List.mem_reverse.1 hc)

theorem linesFrom_returnFeed (start rest : List Char) :
    linesFrom start ('\r' :: '\n' :: rest) =
      ⟨start.reverse, ['\r', '\n']⟩ :: linesFrom [] rest := by
  rw [linesFrom]

/-- Any other character ends a line by itself or belongs to it. -/
theorem linesFrom_cons {c : Char} {rest : List Char} (h : c = '\r' → rest.head? ≠ some '\n')
    (start : List Char) :
    linesFrom start (c :: rest) =
      if endsLine c then ⟨start.reverse, [c]⟩ :: linesFrom [] rest
      else linesFrom (c :: start) rest := by
  rw [linesFrom]
  rintro more rfl rfl
  exact h rfl rfl

theorem linesFrom_newline (start rest : List Char) :
    linesFrom start ('\n' :: rest) = ⟨start.reverse, ['\n']⟩ :: linesFrom [] rest :=
  linesFrom_cons (fun h => absurd h (by decide)) start

theorem linesFrom_unbroken {cs : List Char} (h : Unbroken cs) (start rest : List Char) :
    linesFrom start (cs ++ rest) = linesFrom (cs.reverse ++ start) rest := by
  induction cs generalizing start with
  | nil => rfl
  | cons c cs ih =>
    obtain ⟨hc, hcs⟩ := List.forall_mem_cons.1 h
    have hreturn : c = '\r' → (cs ++ rest).head? ≠ some '\n' := by
      rintro rfl
      cases hc
    rw [List.cons_append, linesFrom_cons hreturn, hc, List.reverse_cons, List.append_assoc]
    exact ih hcs (c :: start)

/-- The lines of a text, put together, are the text. -/
theorem full_linesFrom (start cs : List Char) :
    (linesFrom start cs).flatMap Line.full = start.reverse ++ cs := by
  fun_induction linesFrom start cs with
  | case1 start hstart => simp_all
  | case2 start hstart => simp [Line.full]
  | case3 start rest ih => simp [Line.full, ih]
  | case4 start c rest hreturn hends ih => simp [Line.full, ih]
  | case5 start c rest hreturn hends ih => simp [ih]

/-- A line end is never inside of a line. -/
theorem mem_linesFrom {start cs : List Char} (hstart : Unbroken start) :
    ∀ l ∈ linesFrom start cs, Unbroken l.body ∧ ∀ c ∈ l.ending, endsLine c = true := by
  fun_induction linesFrom start cs with
  | case1 => simp
  | case2 start hnonempty => simpa using hstart.reverse
  | case3 start rest ih =>
    refine List.forall_mem_cons.2 ⟨⟨hstart.reverse, ?_⟩, ih (List.forall_mem_nil _)⟩
    simp [endsLine]
  | case4 start c rest hreturn hends ih =>
    refine List.forall_mem_cons.2 ⟨⟨hstart.reverse, ?_⟩, ih (List.forall_mem_nil _)⟩
    simpa using hends
  | case5 start c rest hreturn hends ih =>
    exact ih (List.forall_mem_cons.2 ⟨by simpa using hends, hstart⟩)

/-- What was read of a line is the start of the first line. -/
theorem linesFrom_starts {start : List Char} (h : start ≠ []) (cs : List Char) :
    ∃ more ending after, linesFrom start cs = ⟨start.reverse ++ more, ending⟩ :: after := by
  fun_induction linesFrom start cs with
  | case1 start hstart => simp_all
  | case2 start hstart => exact ⟨[], [], [], by rw [List.append_nil]⟩
  | case3 start rest => exact ⟨[], _, _, by rw [List.append_nil]⟩
  | case4 start c rest hreturn hends => exact ⟨[], _, _, by rw [List.append_nil]⟩
  | case5 start c rest hreturn hends ih =>
    obtain ⟨more, ending, after, heq⟩ := ih (List.cons_ne_nil _ _)
    exact ⟨c :: more, ending, after, by simpa using heq⟩

/-- A part of a text without a line end stands on one line, behind the rest of what is before it. -/
theorem linesFrom_around {part : List Char} (hne : part ≠ []) (h : Unbroken part)
    (start front behind : List Char) :
    ∃ before left right ending after,
      linesFrom start (front ++ part ++ behind) =
        before ++ ⟨left ++ part ++ right, ending⟩ :: after ∧
      before.flatMap Line.full ++ left = start.reverse ++ front := by
  have hhere : ∀ start, ∃ before left right ending after,
      linesFrom start ([] ++ part ++ behind) =
        before ++ ⟨left ++ part ++ right, ending⟩ :: after ∧
      before.flatMap Line.full ++ left = start.reverse ++ [] := by
    intro start
    have hstart : part.reverse ++ start ≠ [] := by simp [hne]
    obtain ⟨more, ending, after, heq⟩ := linesFrom_starts hstart behind
    refine ⟨[], start.reverse, more, ending, after, ?_, by simp⟩
    rw [List.nil_append, linesFrom_unbroken h, heq]
    simp
  fun_induction linesFrom start front with
  | case1 start | case2 start => exact hhere start
  | case3 start rest ih =>
    obtain ⟨before, left, right, ending, after, heq, hfront⟩ := ih
    refine ⟨⟨start.reverse, ['\r', '\n']⟩ :: before, left, right, ending, after, ?_, ?_⟩
    · rw [List.cons_append, List.cons_append, List.cons_append, List.cons_append,
        linesFrom_returnFeed, heq]
      rfl
    · rw [List.flatMap_cons, List.append_assoc, hfront]
      simp [Line.full]
  | case4 start c rest hreturn hends ih =>
    obtain ⟨before, left, right, ending, after, heq, hfront⟩ := ih
    have hreturn' : c = '\r' → (rest ++ part ++ behind).head? ≠ some '\n' := by
      intro hc hhead
      cases rest with
      | nil =>
        obtain ⟨d, ds, rfl⟩ := List.exists_cons_of_ne_nil hne
        obtain rfl : d = '\n' := Option.some.inj hhead
        exact h.not_mem_newline List.mem_cons_self
      | cons d ds =>
        obtain rfl : d = '\n' := Option.some.inj hhead
        exact hreturn ds hc rfl
    refine ⟨⟨start.reverse, [c]⟩ :: before, left, right, ending, after, ?_, ?_⟩
    · rw [List.cons_append, List.cons_append, linesFrom_cons hreturn', if_pos hends, heq]
      rfl
    · rw [List.flatMap_cons, List.append_assoc, hfront]
      simp [Line.full]
  | case5 start c rest hreturn hends ih =>
    obtain ⟨before, left, right, ending, after, heq, hfront⟩ := ih
    have hreturn' : c = '\r' → (rest ++ part ++ behind).head? ≠ some '\n' := by
      rintro rfl
      exact absurd rfl hends
    refine ⟨before, left, right, ending, after, ?_, by simpa using hfront⟩
    rw [List.cons_append, List.cons_append, linesFrom_cons hreturn', if_neg hends, heq]

/-! ## Lines that end in line feeds -/

/-- A text ends in a line feed, unless it is empty. -/
def Feeds (cs : List Char) : Prop := ∀ c ∈ cs.getLast?, c = '\n'

theorem Feeds.tail {c : Char} {cs : List Char} (h : Feeds (c :: cs)) : Feeds cs := by
  cases cs with
  | nil => exact fun d hd => nomatch hd
  | cons d ds => exact fun e he => h e (by rwa [List.getLast?_cons_cons])

/-- Behind a line feed a new line starts. -/
theorem linesFrom_append {start cs : List Char} (h : Feeds cs) (hstart : cs = [] → start = [])
    (behind : List Char) :
    linesFrom start (cs ++ behind) = linesFrom start cs ++ linesFrom [] behind := by
  fun_induction linesFrom start cs with
  | case1 start hnil =>
    rw [hstart rfl]
    rfl
  | case2 start hnonempty => exact absurd (hstart rfl) (by simpa using hnonempty)
  | case3 start rest ih =>
    rw [List.cons_append, List.cons_append, linesFrom_returnFeed, ih h.tail.tail fun _ => rfl]
    rfl
  | case4 start c rest hreturn hends ih =>
    have hreturn' : c = '\r' → (rest ++ behind).head? ≠ some '\n' := by
      intro hc hhead
      cases rest with
      | nil => exact absurd (hc.symm.trans (h c rfl)) (by decide)
      | cons d ds => exact hreturn ds hc (by rw [Option.some.inj hhead])
    rw [List.cons_append, linesFrom_cons hreturn', if_pos hends, ih h.tail fun _ => rfl]
    rfl
  | case5 start c rest hreturn hends ih =>
    have hreturn' : c = '\r' → (rest ++ behind).head? ≠ some '\n' := by
      rintro rfl
      exact absurd rfl hends
    rw [List.cons_append, linesFrom_cons hreturn', if_neg hends]
    refine ih h.tail ?_
    rintro rfl
    rw [h c rfl] at hends
    exact absurd rfl hends

/-- Every line that an editor sees in a text ends in a line feed, alone or behind a carriage
return. -/
def FeedsOnly (cs : List Char) : Prop :=
  ∀ l ∈ linesFrom [] cs, l.ending = ['\n'] ∨ l.ending = ['\r', '\n']

/-- There an editor counts as many lines as the language does. -/
theorem FeedsOnly.length_lines {cs : List Char} (h : FeedsOnly cs) :
    (linesFrom [] cs).length = cs.count '\n' := by
  have hone : ∀ l ∈ linesFrom [] cs, l.full.count '\n' = 1 := by
    intro l hl
    have hbody := (mem_linesFrom (List.forall_mem_nil _) l hl).1.not_mem_newline
    rw [Line.full, List.count_append, List.count_eq_zero_of_not_mem hbody]
    obtain hending | hending := h l hl <;> rw [hending] <;> rfl
  calc (linesFrom [] cs).length = ((linesFrom [] cs).map fun l => l.full.count '\n').sum := by
        rw [List.map_congr_left hone]
        simp
    _ = ((linesFrom [] cs).flatMap Line.full).count '\n' := by
        rw [List.count_flatMap]
        rfl
    _ = cs.count '\n' := by rw [full_linesFrom]; rfl

/-! ## The lines of the language -/

/-- A line as the language numbers it, from 0 on, with all that stands before it: there are as many
line feeds, and none in the line. -/
structure IsLine (cs : List Char) (number : Nat) (front line : List Char) : Prop where
  text : ∃ behind, cs = front ++ line ++ behind ∧ ∀ c ∈ behind.head?, c = '\n'
  starts : Feeds front
  number : front.count '\n' = number
  single : '\n' ∉ line

theorem exists_feeds (cs : List Char) :
    ∃ front left, cs = front ++ left ∧ Feeds front ∧ '\n' ∉ left := by
  induction cs using List.reverseRecOn with
  | nil => exact ⟨[], [], rfl, nofun, List.not_mem_nil⟩
  | append_singleton cs c ih =>
    by_cases hc : c = '\n'
    · refine ⟨cs ++ [c], [], (List.append_nil _).symm, ?_, List.not_mem_nil⟩
      intro d hd
      rw [List.getLast?_concat] at hd
      exact (Option.some.inj hd).symm.trans hc
    · obtain ⟨front, left, rfl, hfront, hleft⟩ := ih
      refine ⟨front, left ++ [c], List.append_assoc _ _ _, hfront, ?_⟩
      simp [hleft, Ne.symm hc]

/-- A part of a text without a line feed stands on one line. -/
theorem isLine_around {part : List Char} (h : '\n' ∉ part) (before behind : List Char) :
    ∃ front left right, before = front ++ left ∧
      IsLine (before ++ part ++ behind) (before.count '\n') front (left ++ part ++ right) := by
  obtain ⟨front, left, rfl, hfront, hleft⟩ := exists_feeds before
  have hright := Piece.not_mem_takeWhile_ne '\n' behind
  refine ⟨front, left, behind.takeWhile (· ≠ '\n'), rfl, ⟨behind.dropWhile (· ≠ '\n'), ?_, ?_⟩,
    hfront, ?_, ?_⟩
  · simp only [List.append_assoc, List.takeWhile_append_dropWhile]
  · intro c hc
    simpa using Piece.ends_dropWhile (· ≠ '\n') behind c hc
  · rw [List.count_append, List.count_eq_zero_of_not_mem hleft, Nat.add_zero]
  · simp only [List.mem_append, not_or]
    exact ⟨⟨hleft, h⟩, hright⟩

/-- A text has one line more than line feeds. -/
theorem exists_isLine {cs : List Char} {number : Nat} (h : number ≤ cs.count '\n') :
    ∃ front line, IsLine cs number front line := by
  have hsplit : ∃ before behind, cs = before ++ behind ∧ before.count '\n' = number := by
    induction cs generalizing number with
    | nil => exact ⟨[], [], rfl, (Nat.le_zero.1 h).symm⟩
    | cons c cs ih =>
      obtain _ | number := number
      · exact ⟨[], c :: cs, rfl, rfl⟩
      by_cases hc : c = '\n'
      · rw [hc, List.count_cons_self] at h
        obtain ⟨before, behind, rfl, hcount⟩ := ih (Nat.le_of_succ_le_succ h)
        exact ⟨c :: before, behind, rfl, by rw [hc, List.count_cons_self, hcount]⟩
      · rw [List.count_cons_of_ne hc] at h
        obtain ⟨before, behind, rfl, hcount⟩ := ih h
        exact ⟨c :: before, behind, rfl, by rw [List.count_cons_of_ne hc, hcount]⟩
  obtain ⟨before, behind, rfl, rfl⟩ := hsplit
  obtain ⟨front, left, right, -, hline⟩ := isLine_around List.not_mem_nil before behind
  rw [List.append_nil] at hline
  exact ⟨front, _, hline⟩

/-- A line without a carriage return at its end. -/
def withoutReturn (line : List Char) : List Char :=
  if line.getLast? = some '\r' then line.dropLast else line

theorem withoutReturn_append (line : List Char) :
    ∃ last, line = withoutReturn line ++ last ∧ (last = [] ∨ last = ['\r']) := by
  unfold withoutReturn
  split
  next h => exact ⟨['\r'], (List.dropLast_append_getLast? _ h).symm, Or.inr rfl⟩
  next => exact ⟨[], (List.append_nil _).symm, Or.inl rfl⟩

section Agreement

variable {cs front line : List Char} {number : Nat}

/-- Where all lines before it end in line feeds, an editor has the line at the same number. -/
theorem IsLine.getElem?_lines (h : IsLine cs number front line) (hfront : FeedsOnly front) :
    ∃ behind, cs = front ++ line ++ behind ∧ (∀ c ∈ behind.head?, c = '\n') ∧
      (linesFrom [] cs)[number]? = (linesFrom [] (line ++ behind)).head? := by
  obtain ⟨behind, rfl, hbehind⟩ := h.text
  refine ⟨behind, rfl, hbehind, ?_⟩
  have hlength := hfront.length_lines.trans h.number
  rw [List.append_assoc, linesFrom_append h.starts fun _ => rfl,
    List.getElem?_append_right (Nat.le_of_eq hlength), hlength, Nat.sub_self,
    List.head?_eq_getElem?]

/-- If it holds no other line end itself, the editor finds it as wide as it is. -/
theorem IsLine.width (h : IsLine cs number front line) (hfront : FeedsOnly front)
    (hline : Unbroken (withoutReturn line)) :
    ((linesFrom [] cs)[number]?.map (·.body.length)).getD 0 = (withoutReturn line).length := by
  obtain ⟨behind, -, hbehind, hget⟩ := h.getElem?_lines hfront
  obtain ⟨last, hlast, hreturn⟩ := withoutReturn_append line
  generalize withoutReturn line = body at hline hlast
  rw [hget, hlast, List.append_assoc, linesFrom_unbroken hline, List.append_nil]
  obtain rfl | rfl := hreturn <;> obtain _ | ⟨c, more⟩ := behind
  · cases body <;> simp [linesFrom]
  · rw [hbehind c rfl, List.nil_append, linesFrom_newline]
    simp
  · rw [List.append_nil, linesFrom_cons (by simp)]
    simp [endsLine]
  · rw [hbehind c rfl, List.cons_append, List.nil_append, linesFrom_returnFeed]
    simp

/-- An editor finds on the line what stands there before the next line end. -/
theorem IsLine.getElem?_around {left part right : List Char}
    (h : IsLine cs number front (left ++ part ++ right)) (hfront : FeedsOnly front)
    (hleft : Unbroken left) (hpart : Unbroken part) (hne : part ≠ []) :
    ∃ more ending, (linesFrom [] cs)[number]? = some ⟨left ++ part ++ more, ending⟩ := by
  obtain ⟨behind, -, -, hget⟩ := h.getElem?_lines hfront
  have hboth : Unbroken (left ++ part) := List.forall_mem_append.2 ⟨hleft, hpart⟩
  have hread : (left ++ part).reverse ++ [] ≠ [] := by simp [hne]
  obtain ⟨more, ending, after, hlines⟩ := linesFrom_starts hread (right ++ behind)
  refine ⟨more, ending, ?_⟩
  rw [hget, List.append_assoc, linesFrom_unbroken hboth, hlines]
  simp

end Agreement

/-! ## Search -/

/-- A text occurs at a place of another, and not before. -/
structure FirstAt (part cs : List Char) (i : Nat) : Prop where
  here : part <+: cs.drop i
  first : ∀ j < i, ¬ part <+: cs.drop j

theorem FirstAt.unique {part cs : List Char} {i j : Nat} (h : FirstAt part cs i)
    (h' : FirstAt part cs j) : i = j := by
  rcases Nat.lt_trichotomy i j with hlt | heq | hlt
  · exact absurd h.here (h'.first i hlt)
  · exact heq
  · exact absurd h'.here (h.first j hlt)

/-- What follows an occurrence has no say in whether it is the first. -/
theorem FirstAt.of_append {part cs more : List Char} {i : Nat} (h : FirstAt part (cs ++ more) i)
    (hi : i + part.length ≤ cs.length) : FirstAt part cs i := by
  constructor
  · have hhere := h.here
    rw [List.drop_append_of_le_length (by omega)] at hhere
    refine List.prefix_of_prefix_length_le hhere (List.prefix_append _ _) ?_
    rw [List.length_drop]
    omega
  · intro j hj hprefix
    apply h.first j hj
    rw [List.drop_append_of_le_length (by omega)]
    exact hprefix.trans (List.prefix_append _ _)

/-- Where a text occurs at all, its first occurrence is found. -/
theorem indexOf?_of_prefix {part cs : List Char} {k : Nat} (hk : k ≤ cs.length)
    (h : part <+: cs.drop k) : ∃ i ≤ k, indexOf? part cs = some i ∧ FirstAt part cs i := by
  induction cs generalizing k with
  | nil =>
    obtain rfl : k = 0 := Nat.le_zero.1 hk
    obtain rfl := List.prefix_nil.1 h
    exact ⟨0, Nat.le_refl 0, rfl, h, nofun⟩
  | cons c cs ih =>
    by_cases hhere : part <+: c :: cs
    · refine ⟨0, Nat.zero_le k, ?_, hhere, nofun⟩
      rw [indexOf?, if_pos (List.isPrefixOf_iff_prefix.2 hhere)]
    · obtain _ | k := k
      · exact absurd h hhere
      obtain ⟨i, hi, hfound, hfirst⟩ := ih (Nat.le_of_succ_le_succ hk) h
      refine ⟨i + 1, Nat.succ_le_succ hi, ?_, hfirst.here, ?_⟩
      · rw [indexOf?, if_neg (fun h => hhere (List.isPrefixOf_iff_prefix.1 h)), hfound]
        rfl
      · rintro (_ | j) hj
        · exact hhere
        · exact hfirst.first j (Nat.lt_of_succ_lt_succ hj)

end Scriptling.Text
