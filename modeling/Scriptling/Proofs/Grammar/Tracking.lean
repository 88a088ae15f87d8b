-- Following a parser on other tokens. `Tracks` says of two parsers that the second does with tokens
-- related to those of the first what the first does. Its laws are those of parsers: they go token
-- by token, turn by turn.
import Scriptling.Proofs.Grammar.Outcome
import Scriptling.Proofs.Scope.Likeness

namespace Scriptling.Parser

variable {α β γ δ : Type} {T : Token → Token → Prop} {R : α → β → Prop} {Q : γ → δ → Prop}
  {p : Parser α} {p' : Parser β}

/-! ## Following a parser on other tokens -/

/-- With tokens related to its own, `p'` gives what `p` gives. -/
def Tracks (T : Token → Token → Prop) (R : α → β → Prop) (p : Parser α) (p' : Parser β) : Prop :=
  ∀ ⦃ts ts' a rest⦄, List.Forall₂ T ts ts' → Gives p ts a rest →
    ∃ a' rest', Gives p' ts' a' rest' ∧ R a a' ∧ List.Forall₂ T rest rest'

theorem tracks_of_not_gives (h : ∀ ts a rest, ¬ Gives p ts a rest) : Tracks T R p p' :=
  fun _ _ _ _ _ hgives => absurd hgives (h _ _ _)

theorem tracks_pure {a : α} {a' : β} (h : R a a') : Tracks T R (pure a) (pure a') := by
  intro ts ts' b rest hts hgives
  obtain ⟨rfl, rfl⟩ := gives_pure.1 hgives
  exact ⟨a', ts', gives_pure.2 ⟨rfl, rfl⟩, h, hts⟩

theorem Tracks.bind {f : α → Parser γ} {f' : β → Parser δ} (h : Tracks T R p p')
    (hf : ∀ a a', R a a' → Tracks T Q (f a) (f' a')) : Tracks T Q (p >>= f) (p' >>= f') := by
  intro ts ts' c rest hts hgives
  obtain ⟨a, mid, hp, hmore⟩ := gives_bind.1 hgives
  obtain ⟨a', mid', hp', ha, hmid⟩ := h hts hp
  obtain ⟨c', rest', hmore', hc, hrest⟩ := hf a a' ha hmid hmore
  exact ⟨c', rest', gives_bind.2 ⟨a', mid', hp', hmore'⟩, hc, hrest⟩

theorem Tracks.map {f : α → γ} {f' : β → δ} (h : Tracks T R p p')
    (hf : ∀ a a', R a a' → Q (f a) (f' a')) : Tracks T Q (f <$> p) (f' <$> p') :=
  h.bind fun a a' ha => tracks_pure (hf a a' ha)

/-- Parsers that leave their tokens, or what is behind the first one, to others. -/
theorem tracks_of_eq (h : ∀ ts ts', List.Forall₂ T ts ts' → ∃ q q' us us', Tracks T R q q' ∧
    List.Forall₂ T us us' ∧ p ts = q us ∧ p' ts' = q' us') : Tracks T R p p' := by
  intro ts ts' a rest hts hgives
  obtain ⟨q, q', us, us', htracks, hus, hq, hq'⟩ := h ts ts' hts
  unfold Gives at hgives ⊢
  rw [hq] at hgives
  rw [hq']
  exact htracks hus hgives

/-! ### Single tokens -/

theorem tracks_acceptIf (hT : Lookalike T) (q : Kind → Bool) :
    Tracks T (Option.Rel T) (acceptIf q) (acceptIf q) := by
  intro ts ts' o rest hts hgives
  obtain ⟨t, rfl, rfl, hq⟩ | ⟨rfl, rfl, hq⟩ := gives_acceptIf.1 hgives
  · cases hts with
    | @cons _ t' _ ts' ht hts =>
      refine ⟨some t', ts', gives_acceptIf.2 (Or.inl ⟨t', rfl, rfl, ?_⟩), .some ht, hts⟩
      rw [← hT.kind ht]
      exact hq
  · refine ⟨none, ts', gives_acceptIf.2 (Or.inr ⟨rfl, rfl, ?_⟩), .none, hts⟩
    cases hts with
    | nil => exact hq
    | cons ht hts =>
      intro t' ht'
      cases ht'
      rw [← hT.kind ht]
      exact hq _ rfl

theorem tracks_accept (hT : Lookalike T) (k : Kind) :
    Tracks T (Option.Rel T) (accept k) (accept k) := tracks_acceptIf hT _

theorem tracks_expect (hT : Lookalike T) (k : Kind) (problem : Problem) :
    Tracks T T (expect k problem) (expect k problem) := by
  intro ts ts' t rest hts hgives
  obtain ⟨rfl, hk⟩ := gives_expect.1 hgives
  cases hts with
  | @cons _ t' _ ts' ht hts =>
    refine ⟨t', ts', gives_expect.2 ⟨rfl, ?_⟩, ht, hts⟩
    rw [← hT.kind ht]
    exact hk

theorem tracks_check (hT : Lookalike T) (k : Kind) : Tracks T Eq (check k) (check k) := by
  intro ts ts' b rest hts hgives
  obtain ⟨rfl, hb⟩ := gives_check.1 hgives
  refine ⟨b, ts', gives_check.2 ⟨rfl, ?_⟩, rfl, hts⟩
  rw [hb]
  cases hts with
  | nil => exact Iff.rfl
  | cons ht hts =>
    have hkind := hT.kind ht
    simp [StartsWith, hkind]

theorem tracks_peek : Tracks T (Option.Rel T) peek? peek? := by
  intro ts ts' o rest hts hgives
  cases hgives
  refine ⟨_, _, rfl, ?_, hts⟩
  cases hts with
  | nil => exact .none
  | cons ht hts => exact .some ht

/-! ### Loops -/

theorem tracks_iterate {step : α → Parser (Option α)} {step' : β → Parser (Option β)}
    (hstep : ∀ a a', R a a' → Tracks T (Option.Rel R) (step a) (step' a')) (n : Nat) {a : α}
    {a' : β} (ha : R a a') : Tracks T R (iterate step n a) (iterate step' n a') := by
  induction n generalizing a a' with
  | zero => exact tracks_pure ha
  | succ n ih =>
    refine (hstep a a' ha).bind ?_
    rintro o o' (hb | _)
    · exact ih hb
    · exact tracks_pure ha

theorem tracks_many {step : Parser (Option α)} {step' : Parser (Option β)}
    (hstep : Tracks T (Option.Rel R) step step') (n : Nat) :
    Tracks T (List.Forall₂ R) (many step n) (many step' n) := by
  induction n with
  | zero => exact tracks_pure .nil
  | succ n ih =>
    refine hstep.bind ?_
    rintro o o' (hb | _)
    · exact ih.map fun bs bs' hbs => .cons hb hbs
    · exact tracks_pure .nil

theorem tracks_moreItems (hT : Lookalike T) (hitem : Tracks T R p p') (problem : Problem)
    (n count : Nat) :
    Tracks T (List.Forall₂ R) (moreItems p problem n count) (moreItems p' problem n count) := by
  induction n generalizing count with
  | zero => exact tracks_pure .nil
  | succ n ih =>
    refine (tracks_accept hT .comma).bind ?_
    rintro o o' (_ | _)
    · dsimp only
      split
      · refine tracks_of_not_gives fun ts a rest hgives => ?_
        obtain ⟨_, _, hcomplain, -⟩ := gives_bind.1 hgives
        cases hcomplain
      · exact hitem.bind fun a a' ha => (ih (count + 1)).map fun as as' has => .cons ha has
    · exact tracks_pure .nil

theorem tracks_commaSeparated (hT : Lookalike T) (hitem : Tracks T R p p') (problem : Problem)
    (size : Nat) :
    Tracks T (List.Forall₂ R) (commaSeparated size p problem) (commaSeparated size p' problem) :=
  hitem.bind fun _ _ ha =>
    (tracks_moreItems hT hitem problem size 1).map fun _ _ has => .cons ha has

end Scriptling.Parser
