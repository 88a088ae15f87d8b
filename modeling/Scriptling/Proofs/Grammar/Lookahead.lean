-- How far a parser looks. `Overlooks` says of two parsers that the second, with more tokens behind
-- those of the first, does what the first does: the same result or the same unwinding, the same
-- complaints, the same tokens left. Unlike `Tracks` it speaks of failures too, so it carries over
-- to parsers that recover from them. Its laws go token by token, turn by turn.
import Scriptling.Proofs.Grammar.Outcome

namespace Scriptling

/-- The same outcome with more tokens behind those that are left. -/
def Parsed.before {α : Type} (parsed : Parsed α) (extra : List Token) : Parsed α :=
  ⟨parsed.outcome, parsed.rest ++ extra, parsed.complaints⟩

@[simp] theorem Parsed.before_rest {α : Type} (parsed : Parsed α) (extra : List Token) :
    (parsed.before extra).rest = parsed.rest ++ extra := rfl

namespace Parser

variable {α β : Type} {extra : List Token} {size bite bite' : Nat} {closed closed' : Bool}

/-! ## Tokens behind those of a parser -/

theorem bind_of_ok {p : Parser α} {f : α → Parser β} {ts rest : List Token} {a : α}
    {complaints : List Complaint} (h : p ts = ⟨.ok a, rest, complaints⟩) :
    (p >>= f) ts = ⟨(f a rest).outcome, (f a rest).rest, complaints ++ (f a rest).complaints⟩ := by
  show Parser.bind p f ts = _
  rw [Parser.bind, h]

theorem bind_of_error {p : Parser α} {f : α → Parser β} {ts rest : List Token} {u : Unwind}
    {complaints : List Complaint} (h : p ts = ⟨.error u, rest, complaints⟩) :
    (p >>= f) ts = ⟨.error u, rest, complaints⟩ := by
  show Parser.bind p f ts = _
  rw [Parser.bind, h]

theorem map_apply (f : α → β) (p : Parser α) (ts : List Token) :
    (f <$> p) ts = ⟨(p ts).outcome.map f, (p ts).rest, (p ts).complaints⟩ := by
  have hbind : (f <$> p) ts = (p >>= fun a => pure (f a)) ts := rfl
  rcases hp : p ts with ⟨u | a, rest, complaints⟩
  · rw [hbind, bind_of_error hp]
    rfl
  · rw [hbind, bind_of_ok hp]
    exact congrArg (Parsed.mk _ _) (List.append_nil complaints)

theorem append_head? {ts : List Token} (h : ts ≠ [] ∨ extra = []) :
    (ts ++ extra).head? = ts.head? := by
  cases ts with
  | nil =>
    obtain h | rfl := h
    · exact absurd rfl h
    · rfl
  | cons t us => rfl

/-- With `extra` behind the tokens, `p'` does what `p` does. Where `p` comes to the end of its
tokens, `p'` may look at `extra`, so this is asked there only of results, and only of parsers that
are `closed`. -/
structure Overlooks (extra : List Token) (size bite : Nat) (closed : Bool) (p p' : Parser α) :
    Prop where
  suffix : ∀ ts, (p ts).rest <:+ ts
  /-- A result costs at least `bite` tokens. -/
  bites : ∀ {ts a}, (p ts).outcome = .ok a → (p ts).rest.length + bite ≤ ts.length
  /-- Tokens that do not fit are complained about at the first one that does not. -/
  points : ∀ {ts}, (p ts).outcome = .error .malformed →
    ∃ problem, ⟨(p ts).rest.head?, problem⟩ ∈ (p ts).complaints
  follows : ∀ {ts}, ts.length ≤ size →
    ((p ts).rest ≠ [] ∨ extra = [] ∨ closed = true ∧ ∃ a, (p ts).outcome = .ok a) →
    p' (ts ++ extra) = (p ts).before extra

/-- A parser that is not closed has tokens left. -/
theorem left_of_open {P : Prop} {rest : List Token}
    (h : rest ≠ [] ∨ extra = [] ∨ false = true ∧ P) : rest ≠ [] ∨ extra = [] := by
  refine h.imp_right ?_
  rintro (hextra | ⟨hfalse, -⟩)
  · exact hextra
  · cases hfalse

section Laws

variable {p p' : Parser α}

theorem Overlooks.weaken (h : Overlooks extra size bite closed p p') (hbite : bite' ≤ bite)
    (hclosed : closed' = true → closed = true) : Overlooks extra size bite' closed' p p' where
  suffix := h.suffix
  bites hok := by
    have := h.bites hok
    omega
  points := h.points
  follows hsize hsafe := h.follows hsize (hsafe.imp_right (Or.imp_right (And.imp_left hclosed)))

theorem Overlooks.shorten (h : Overlooks extra size bite closed p p') {n : Nat} (hn : n ≤ size) :
    Overlooks extra n bite closed p p' where
  suffix := h.suffix
  bites := h.bites
  points := h.points
  follows hsize := h.follows (by omega)

theorem overlooks_pure (a : α) : Overlooks extra size 0 closed (pure a) (pure a) where
  suffix _ := List.suffix_refl _
  bites _ := Nat.le_refl _
  points herror := nomatch herror
  follows _ _ := rfl

theorem overlooks_tooDeep : Overlooks extra size bite closed (tooDeep : Parser α) tooDeep where
  suffix _ := List.suffix_refl _
  bites hok := nomatch hok
  points herror := nomatch herror
  follows _ _ := rfl

theorem overlooks_refuse (problem : Problem) :
    Overlooks extra size bite closed (refuse problem : Parser α) (refuse problem) where
  suffix _ := List.suffix_refl _
  bites hok := nomatch hok
  points _ := ⟨problem, List.mem_singleton_self _⟩
  follows {ts} _ hsafe := by
    have hhead : (ts ++ extra).head? = ts.head? := by
      obtain hrest | hextra | ⟨-, a, hok⟩ := hsafe
      · exact append_head? (Or.inl hrest)
      · exact append_head? (Or.inr hextra)
      · cases hok
    simp [refuse, Parsed.before, hhead]

/-- The first parser may come to the end only if it is closed, or if the second takes a token
there. How long the tokens are that the second gets may depend on what the first gives. -/
theorem Overlooks.bindOn {f f' : α → Parser β} {n : Nat} {m : α → Nat}
    (h : Overlooks extra size bite closed p p') (hn : n ≤ size)
    (hm : ∀ {ts a}, (p ts).outcome = .ok a → ts.length ≤ n → (p ts).rest.length ≤ m a)
    (hf : ∀ a, Overlooks extra (m a) bite' closed' (f a) (f' a))
    (hclosed : closed' = true → closed = true ∨ 0 < bite') :
    Overlooks extra n (bite + bite') closed' (p >>= f) (p' >>= f') where
  suffix ts := by
    have hsuffix := h.suffix ts
    rcases hp : p ts with ⟨u | a, mid, complaints⟩ <;> rw [hp] at hsuffix
    · rw [bind_of_error hp]
      exact hsuffix
    · rw [bind_of_ok hp]
      exact ((hf a).suffix mid).trans hsuffix
  bites {ts b} hok := by
    rcases hp : p ts with ⟨u | a, mid, complaints⟩
    · rw [bind_of_error hp] at hok
      cases hok
    · rw [bind_of_ok hp] at hok ⊢
      have hbite : mid.length + bite ≤ ts.length := by
        simpa only [hp] using h.bites (congrArg Parsed.outcome hp)
      have hbite' := (hf a).bites hok
      simp only
      omega
  points {ts} herror := by
    have hpoints := @h.points ts
    rcases hp : p ts with ⟨u | a, mid, complaints⟩ <;> rw [hp] at hpoints
    · rw [bind_of_error hp] at herror ⊢
      cases herror
      exact hpoints rfl
    · rw [bind_of_ok hp] at herror ⊢
      obtain ⟨problem, hproblem⟩ := (hf a).points herror
      exact ⟨problem, List.mem_append_right _ hproblem⟩
  follows {ts} hsize hsafe := by
    have hfollows := h.follows (Nat.le_trans hsize hn)
    have hlength := @hm ts
    rcases hp : p ts with ⟨u | a, mid, complaints⟩ <;> rw [hp] at hfollows hlength
    · rw [bind_of_error hp] at hsafe ⊢
      refine bind_of_error (hfollows ?_)
      obtain hrest | hextra | ⟨-, b, hok⟩ := hsafe
      · exact Or.inl hrest
      · exact Or.inr (Or.inl hextra)
      · cases hok
    · rw [bind_of_ok hp] at hsafe ⊢
      -- what is left in the end is a part of what is left in the middle
      have hmid : mid ≠ [] ∨ extra = [] ∨
          closed = true ∧ ∃ a', (Except.ok a : Except Unwind α) = .ok a' := by
        obtain hrest | hextra | ⟨hatEnd, b, hok⟩ := hsafe
        · refine Or.inl fun hnil => hrest ?_
          subst hnil
          exact List.suffix_nil.1 ((hf a).suffix [])
        · exact Or.inr (Or.inl hextra)
        · obtain hatEnd | hbite := hclosed hatEnd
          · exact Or.inr (Or.inr ⟨hatEnd, a, rfl⟩)
          · have := (hf a).bites hok
            refine Or.inl (List.length_pos_iff.1 ?_)
            omega
      have hnext := (hf a).follows (hlength rfl hsize) hsafe
      rw [bind_of_ok (hfollows hmid)]
      simp only [Parsed.before_rest, hnext]
      rfl

theorem Overlooks.bindAll {f f' : α → Parser β} (h : Overlooks extra size bite closed p p')
    (hf : ∀ a, Overlooks extra size bite' closed' (f a) (f' a))
    (hclosed : closed' = true → closed = true ∨ 0 < bite') :
    Overlooks extra size (bite + bite') closed' (p >>= f) (p' >>= f') := by
  refine h.bindOn (Nat.le_refl _) (fun hok hsize => ?_) hf hclosed
  have := h.bites hok
  omega

/-- Parsers that are not closed. -/
theorem Overlooks.bind {f f' : α → Parser β} (h : Overlooks extra size bite closed p p')
    (hf : ∀ a, Overlooks extra size 0 false (f a) (f' a)) :
    Overlooks extra size bite false (p >>= f) (p' >>= f') := h.bindAll hf nofun

/-- The second parser takes a token, so the first one does not come to the end. -/
theorem Overlooks.bindBite {f f' : α → Parser β} (h : Overlooks extra size bite closed p p')
    (hf : ∀ a, Overlooks extra size 1 closed' (f a) (f' a)) :
    Overlooks extra size 1 closed' (p >>= f) (p' >>= f') :=
  (h.bindAll hf fun _ => Or.inr Nat.one_pos).weaken (Nat.le_add_left _ _) id

/-- Closed parsers. -/
theorem Overlooks.bindEnd {f f' : α → Parser β} (h : Overlooks extra size bite true p p')
    (hf : ∀ a, Overlooks extra size 0 true (f a) (f' a)) :
    Overlooks extra size bite true (p >>= f) (p' >>= f') := h.bindAll hf fun _ => Or.inl rfl

theorem Overlooks.map (f : α → β) (h : Overlooks extra size bite closed p p') :
    Overlooks extra size bite closed (f <$> p) (f <$> p') :=
  h.bindAll (fun a => overlooks_pure (f a)) Or.inl

/-! ### Single tokens -/

/-- A parser that looks at the next token, and no more. -/
theorem overlooks_look (f : Option Token → α) (g : Option Token → List Complaint) :
    Overlooks extra size 0 false (fun ts => ⟨.ok (f ts.head?), ts, g ts.head?⟩)
      (fun ts => ⟨.ok (f ts.head?), ts, g ts.head?⟩) where
  suffix _ := List.suffix_refl _
  bites _ := Nat.le_refl _
  points herror := nomatch herror
  follows {ts} _ hsafe := by
    have hhead : (ts ++ extra).head? = ts.head? := append_head? (left_of_open hsafe)
    simp only [hhead]
    rfl

theorem overlooks_peek : Overlooks extra size 0 false peek? peek? :=
  overlooks_look id fun _ => []

theorem overlooks_check (k : Kind) : Overlooks extra size 0 false (check k) (check k) :=
  overlooks_look (·.any (·.kind == k)) fun _ => []

theorem overlooks_complain (problem : Problem) :
    Overlooks extra size 0 false (complain problem) (complain problem) :=
  overlooks_look (fun _ => ()) fun t => [⟨t, problem⟩]

theorem overlooks_complainAt (t : Token) (problem : Problem) :
    Overlooks extra size 0 false (complainAt t problem) (complainAt t problem) :=
  overlooks_look (fun _ => ()) fun _ => [⟨some t, problem⟩]

theorem acceptIf_cons (q : Kind → Bool) (t : Token) (ts : List Token) :
    acceptIf q (t :: ts) = if q t.kind then ⟨.ok (some t), ts, []⟩ else ⟨.ok none, t :: ts, []⟩ :=
  rfl

/-- A token with which `extra` does not start may be looked for at the end. -/
theorem overlooks_acceptIf_of {q : Kind → Bool}
    (hextra : closed = true → ∀ t ∈ extra.head?, q t.kind = false) :
    Overlooks extra size 0 closed (acceptIf q) (acceptIf q) where
  suffix ts := by
    cases ts with
    | nil => exact List.suffix_refl _
    | cons t us =>
      rw [acceptIf_cons]
      split
      · exact List.suffix_cons _ _
      · exact List.suffix_refl _
  bites {ts a} _ := by
    cases ts with
    | nil => exact Nat.le_refl _
    | cons t us =>
      rw [acceptIf_cons]
      split
      · exact Nat.le_succ _
      · exact Nat.le_refl _
  points {ts} herror := by
    cases ts with
    | nil => cases herror
    | cons t us =>
      rw [acceptIf_cons] at herror
      split at herror <;> cases herror
  follows {ts} _ hsafe := by
    cases ts with
    | nil =>
      obtain hrest | rfl | ⟨hclosed, -⟩ := hsafe
      · exact absurd rfl hrest
      · rfl
      · cases extra with
        | nil => rfl
        | cons t us => exact (acceptIf_cons q t us).trans (if_neg (by simp [hextra hclosed t rfl]))
    | cons t us =>
      rw [List.cons_append, acceptIf_cons, acceptIf_cons]
      split <;> rfl

theorem overlooks_acceptIf (q : Kind → Bool) :
    Overlooks extra size 0 false (acceptIf q) (acceptIf q) := overlooks_acceptIf_of nofun

theorem overlooks_accept (k : Kind) : Overlooks extra size 0 false (accept k) (accept k) :=
  overlooks_acceptIf _

theorem overlooks_accept_atEnd {k : Kind} (hextra : ¬ StartsWith k extra) :
    Overlooks extra size 0 true (accept k) (accept k) := by
  refine overlooks_acceptIf_of fun _ t ht => ?_
  obtain ⟨us, rfl⟩ : ∃ us, extra = t :: us := List.head?_eq_some_iff.1 ht
  exact beq_eq_false_iff_ne.2 fun hk => hextra ⟨t, us, rfl, hk⟩

theorem expect_eq (k : Kind) (problem : Problem) (ts : List Token) :
    expect k problem ts = match ts with
      | [] => refuse problem []
      | t :: us => if t.kind = k then ⟨.ok t, us, []⟩ else refuse problem (t :: us) := by
  cases ts with
  | nil => rfl
  | cons t us =>
    dsimp only
    split
    · rename_i hk
      have hgives : Gives (expect k problem) (t :: us) t us := gives_expect.2 ⟨rfl, hk⟩
      exact hgives
    · rename_i hk
      have haccept : accept k (t :: us) = ⟨.ok none, t :: us, []⟩ :=
        gives_accept.2 (Or.inr ⟨rfl, rfl, not_startsWith_cons hk us⟩)
      exact bind_of_ok haccept

theorem overlooks_expect (k : Kind) (problem : Problem) :
    Overlooks extra size 1 true (expect k problem) (expect k problem) where
  suffix ts := by
    rw [expect_eq]
    split
    · exact List.suffix_refl _
    · split
      · exact List.suffix_cons _ _
      · exact List.suffix_refl _
  bites {ts a} hok := by
    rw [expect_eq] at hok ⊢
    cases ts with
    | nil => cases hok
    | cons t us =>
      dsimp only at hok ⊢
      split at hok
      · rename_i hk
        rw [if_pos hk]
        exact Nat.le_refl _
      · cases hok
  points {ts} herror := by
    rw [expect_eq] at herror ⊢
    cases ts with
    | nil => exact ⟨problem, List.mem_singleton_self _⟩
    | cons t us =>
      dsimp only at herror ⊢
      split at herror
      · cases herror
      · rename_i hk
        rw [if_neg hk]
        exact ⟨problem, List.mem_singleton_self _⟩
  follows {ts} _ hsafe := by
    rw [expect_eq, expect_eq k problem ts] at *
    cases ts with
    | nil =>
      obtain hrest | rfl | ⟨-, a, hok⟩ := hsafe
      · exact absurd rfl hrest
      · rfl
      · cases hok
    | cons t us =>
      dsimp only [List.cons_append]
      split <;> rfl

/-- Parsers that go by the first token, and take it or leave it to others. -/
theorem overlooks_byHead {q q' : Parser α} (hq : Overlooks extra size 1 closed q q')
    (hnil : p [] = q [] ∧ p' [] = q' [])
    (hcons : ∀ t,
      (∃ r r', Overlooks extra size 0 closed r r' ∧ (∀ ts, p (t :: ts) = r ts) ∧
        ∀ ts, p' (t :: ts) = r' ts) ∨
      ((∀ ts, p (t :: ts) = q (t :: ts)) ∧ ∀ ts, p' (t :: ts) = q' (t :: ts))) :
    Overlooks extra size 1 closed p p' where
  suffix ts := by
    cases ts with
    | nil =>
      rw [hnil.1]
      exact hq.suffix []
    | cons t us =>
      obtain ⟨r, r', hr, hp, -⟩ | ⟨hp, -⟩ := hcons t <;> rw [hp]
      · exact (hr.suffix us).trans (List.suffix_cons _ _)
      · exact hq.suffix _
  bites {ts a} hok := by
    cases ts with
    | nil =>
      rw [hnil.1] at hok ⊢
      exact hq.bites hok
    | cons t us =>
      obtain ⟨r, r', hr, hp, -⟩ | ⟨hp, -⟩ := hcons t <;> rw [hp] at hok ⊢
      · exact Nat.succ_le_succ (hr.bites hok)
      · exact hq.bites hok
  points {ts} herror := by
    cases ts with
    | nil =>
      rw [hnil.1] at herror ⊢
      exact hq.points herror
    | cons t us =>
      obtain ⟨r, r', hr, hp, -⟩ | ⟨hp, -⟩ := hcons t <;> rw [hp] at herror ⊢
      · exact hr.points herror
      · exact hq.points herror
  follows {ts} hsize hsafe := by
    cases ts with
    | nil =>
      rw [hnil.1] at hsafe ⊢
      -- nothing is left of no tokens, and they are no result
      have hextra : extra = [] := by
        obtain hrest | hextra | ⟨-, a, hok⟩ := hsafe
        · exact absurd (List.suffix_nil.1 (hq.suffix [])) hrest
        · exact hextra
        · exact absurd (hq.bites hok) (Nat.not_succ_le_zero _)
      subst hextra
      exact hnil.2.trans (hq.follows hsize hsafe)
    | cons t us =>
      obtain ⟨r, r', hr, hp, hp'⟩ | ⟨hp, hp'⟩ := hcons t <;> rw [hp] at hsafe ⊢
      · exact (hp' _).trans (hr.follows (Nat.le_of_succ_le hsize) hsafe)
      · exact (hp' _).trans (hq.follows hsize hsafe)

/-! ### Loops -/

/-- What a step gives costs a token. -/
def Eats (step : Parser (Option α)) : Prop :=
  ∀ ts a, (step ts).outcome = .ok (some a) → (step ts).rest.length < ts.length

/-- A step that goes on only if it finds a token eats that token. -/
theorem eats_acceptIf {q : Kind → Bool} {f : Option Token → Parser (Option α)}
    (hnone : f none = pure none) (hsome : ∀ t ts, (f (some t) ts).rest <:+ ts) :
    Eats (acceptIf q >>= f) := by
  intro ts a hok
  have hstop : ∀ us, (f none us).outcome ≠ .ok (some a) := by
    rintro us hus
    rw [hnone] at hus
    cases hus
  cases ts with
  | nil => exact absurd hok (hstop [])
  | cons t us =>
    by_cases hq : q t.kind = true
    · have haccept : acceptIf q (t :: us) = ⟨.ok (some t), us, []⟩ := if_pos hq
      rw [bind_of_ok haccept]
      exact Nat.lt_succ_of_le (hsome t us).length_le
    · have haccept : acceptIf q (t :: us) = ⟨.ok none, t :: us, []⟩ := if_neg hq
      rw [bind_of_ok haccept] at hok
      exact absurd hok (hstop _)

/-- One turn of a loop, which takes a token if the loop goes on. -/
theorem Overlooks.turn {q q' : Parser (Option α)} {f f' : Option α → Parser β} {n : Nat}
    (h : Overlooks extra size 0 false q q') (hn : n + 1 ≤ size) (heats : Eats q)
    (hdone : Overlooks extra (n + 1) 0 false (f none) (f' none))
    (hmore : ∀ a, Overlooks extra n 0 false (f (some a)) (f' (some a))) :
    Overlooks extra (n + 1) 0 false (q >>= f) (q' >>= f') := by
  have hnext : ∀ o, Overlooks extra (o.elim (n + 1) fun _ => n) 0 false (f o) (f' o) := by
    rintro (_ | a)
    · exact hdone
    · exact hmore a
  refine h.bindOn hn ?_ hnext nofun
  rintro ts (_ | a) hok hsize
  · exact Nat.le_trans (h.suffix ts).length_le hsize
  · exact Nat.le_of_lt_succ (Nat.lt_of_lt_of_le (heats ts a hok) hsize)

/-- Without tokens and without any behind them, both parsers give the same. -/
theorem overlooks_of_nil {a : α} (hp : p = pure a) (hp' : p' [] = ⟨.ok a, [], []⟩) :
    Overlooks extra 0 0 false p p' := by
  subst hp
  have hpure : Overlooks extra 0 0 false (pure a) (pure a) := overlooks_pure a
  refine ⟨hpure.suffix, hpure.bites, hpure.points, ?_⟩
  intro ts hsize hsafe
  obtain rfl : ts = [] := List.length_eq_zero_iff.1 (by omega)
  obtain hrest | rfl := left_of_open hsafe
  · exact absurd rfl hrest
  · exact hp'

/-- Each turn takes a token, so the loop ends before its turns are used up, and where there are
more turns it ends in the same way. -/
theorem overlooks_iterate {step step' : α → Parser (Option α)}
    (hstep : ∀ a, Overlooks extra size 0 false (step a) (step' a)) (heats : ∀ a, Eats (step a))
    (hnone : ∀ a, step' a [] = ⟨.ok none, [], []⟩) {n n' : Nat} (hsize : n ≤ size)
    (hn : n + extra.length ≤ n') (a : α) :
    Overlooks extra n 0 false (iterate step n a) (iterate step' n' a) := by
  induction n generalizing n' a with
  | zero =>
    refine overlooks_of_nil rfl ?_
    cases n' with
    | zero => rfl
    | succ n' => exact bind_of_ok (hnone a)
  | succ n ih =>
    obtain ⟨n', rfl⟩ : ∃ m, n' = m + 1 := ⟨n' - 1, by omega⟩
    refine (hstep a).turn hsize (heats a) (overlooks_pure a) fun b => ?_
    exact ih (by omega) (by omega) b

/-- A loop that goes on as long as it finds a token. -/
theorem overlooks_extending {size' : Nat} {q : Kind → Bool}
    {next next' : α → Option Token → Parser (Option α)} (hnone : ∀ a, next a none = pure none)
    (hnone' : ∀ a, next' a none = pure none)
    (hsome : ∀ a t, Overlooks extra size 0 false (next a (some t)) (next' a (some t)))
    (hsize : size + extra.length ≤ size') (a : α) :
    Overlooks extra size 0 false (iterate (fun a => acceptIf q >>= next a) size a)
      (iterate (fun a => acceptIf q >>= next' a) size' a) := by
  refine overlooks_iterate (fun a => ?_) (fun a => ?_) (fun a => ?_) (Nat.le_refl _) hsize a
  · refine (overlooks_acceptIf q).bind ?_
    rintro (_ | t)
    · rw [hnone, hnone']
      exact overlooks_pure none
    · exact hsome a t
  · exact eats_acceptIf (hnone a) fun t => (hsome a t).suffix
  · have hend : (acceptIf q >>= next' a) [] = _ := bind_of_ok rfl
    rw [hend, hnone']
    rfl

theorem overlooks_many {step step' : Parser (Option α)}
    (hstep : Overlooks extra size 0 false step step') (heats : Eats step)
    (hnone : step' [] = ⟨.ok none, [], []⟩) {n n' : Nat} (hsize : n ≤ size)
    (hn : n + extra.length ≤ n') : Overlooks extra n 0 false (many step n) (many step' n') := by
  induction n generalizing n' with
  | zero =>
    refine overlooks_of_nil rfl ?_
    cases n' with
    | zero => rfl
    | succ n' => exact bind_of_ok hnone
  | succ n ih =>
    obtain ⟨n', rfl⟩ : ∃ m, n' = m + 1 := ⟨n' - 1, by omega⟩
    refine hstep.turn hsize heats (overlooks_pure []) fun a => ?_
    exact (ih (by omega) (by omega)).map (a :: ·)

theorem eats_accept (k : Kind) : Eats (accept k) := by
  intro ts t hok
  cases ts with
  | nil => cases hok
  | cons u us =>
    unfold accept at hok ⊢
    rw [acceptIf_cons] at hok ⊢
    split at hok
    · rw [if_pos ‹_›]
      exact Nat.lt_succ_self _
    · cases hok

theorem overlooks_moreItems {item item' : Parser α}
    (hitem : Overlooks extra size 0 false item item') (problem : Problem) {n n' : Nat}
    (hsize : n ≤ size) (hn : n + extra.length ≤ n') (count : Nat) :
    Overlooks extra n 0 false (moreItems item problem n count)
      (moreItems item' problem n' count) := by
  induction n generalizing n' count with
  | zero =>
    refine overlooks_of_nil rfl ?_
    cases n' with
    | zero => rfl
    | succ n' => rfl
  | succ n ih =>
    obtain ⟨n', rfl⟩ : ∃ m, n' = m + 1 := ⟨n' - 1, by omega⟩
    refine (overlooks_accept .comma).turn hsize (eats_accept _) (overlooks_pure []) fun comma => ?_
    have hrest := ih (Nat.le_of_succ_le hsize) (show n + extra.length ≤ n' by omega) (count + 1)
    have hmore := (hitem.shorten (Nat.le_of_succ_le hsize)).bind fun a => hrest.map (a :: ·)
    dsimp only
    split
    · exact (overlooks_complain problem).bind fun _ => hmore
    · exact hmore

theorem overlooks_commaSeparated {size' : Nat} {item item' : Parser α}
    (hitem : Overlooks extra size 1 false item item') (problem : Problem)
    (hsize : size + extra.length ≤ size') :
    Overlooks extra size 1 false (commaSeparated size item problem)
      (commaSeparated size' item' problem) := by
  have hitem' := hitem.weaken (Nat.zero_le 1) id
  exact hitem.bind fun a =>
    (overlooks_moreItems hitem' problem (Nat.le_refl _) hsize 1).map (a :: ·)

end Laws

end Parser

end Scriptling
