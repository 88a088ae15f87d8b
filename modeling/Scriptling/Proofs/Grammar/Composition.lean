-- Faults compose. If what comes first ends with a semicolon and nothing is missing at its end, its
-- faults do not reach into what comes behind: the two are read as each is read alone, faults and
-- all.
import Mathlib.Data.List.ReduceOption
import Scriptling.Proofs.Grammar.Recovery

namespace Scriptling.Parser

variable {extra : List Token} {size size' : Nat}

/-! ## Declarations at the top level -/

/-- No fault of the tokens reaches into `extra`: there are none, or all of them are met at tokens,
the last of which is a semicolon. -/
def Settled (extra ts : List Token) (complaints : List Complaint) : Prop :=
  extra = [] ∨ complaints = [] ∨ EndsWithSemicolon ts ∧ ∀ c ∈ complaints, c.token? ≠ none

/-- Where there is a fault, there are tokens left, and they end with the semicolon. -/
theorem Settled.left_of_mem {ts rest : List Token} {complaints : List Complaint}
    {problem : Problem} (h : Settled extra ts complaints)
    (hmem : ⟨rest.head?, problem⟩ ∈ complaints) (hrest : rest <:+ ts) :
    extra = [] ∨ rest ≠ [] ∧ EndsWithSemicolon rest := by
  obtain hextra | rfl | ⟨hend, hnone⟩ := h
  · exact Or.inl hextra
  · cases hmem
  · have hne : rest ≠ [] := by
      rintro rfl
      exact hnone _ hmem rfl
    exact Or.inr ⟨hne, hend.suffix hrest hne⟩

theorem Settled.mono {ts rest : List Token} {complaints complaints' : List Complaint}
    (h : Settled extra ts complaints) (hsub : complaints' ⊆ complaints) (hrest : rest <:+ ts)
    (hnil : rest = [] → complaints' = []) : Settled extra rest complaints' := by
  obtain hextra | rfl | ⟨hend, hnone⟩ := h
  · exact Or.inl hextra
  · exact Or.inr (Or.inl (List.subset_nil.1 hsub))
  · by_cases hne : rest = []
    · exact Or.inr (Or.inl (hnil hne))
    · exact Or.inr (Or.inr ⟨hend.suffix hrest hne, fun c hc => hnone c (hsub hc)⟩)

theorem topLevel_of_ok {budget : Nat} {ts rest : List Token} {o : Option RawStmt}
    {complaints : List Complaint} (h : declaration size budget ts = ⟨.ok o, rest, complaints⟩) :
    topLevel size budget ts = ⟨.ok o, rest, complaints⟩ := by
  rw [topLevel, h]

theorem topLevel_of_error {budget : Nat} {ts rest : List Token} {u : Unwind}
    {complaints : List Complaint} (h : declaration size budget ts = ⟨.error u, rest, complaints⟩) :
    topLevel size budget ts =
      ⟨.ok none, synchronize rest, complaints ++ [⟨rest.head?, .tooDeep⟩]⟩ := by
  rw [topLevel, h]

theorem topLevel_append {budget : Nat} {ts : List Token} (hsize : size + extra.length ≤ size')
    (hextra : ¬ StartsWith (.keyword .elseWord) extra) (hts : ts.length ≤ size)
    (h : Settled extra ts (topLevel size budget ts).complaints) :
    topLevel size' budget (ts ++ extra) = (topLevel size budget ts).before extra := by
  obtain ⟨p, p', hp, heq, heq'⟩ := (overlooks_statement_and_declaration hsize hextra budget).2
  have hsuffix := hp.suffix ts
  have hpoints := @hp.points ts
  have hfollows := hp.follows hts
  -- what could not be read was complained about where it stopped, so tokens are left there
  rcases hparsed : p ts with ⟨(_ | _) | s, rest, complaints⟩ <;>
    rw [hparsed] at hsuffix hpoints hfollows
  · have hd : declaration size budget ts = ⟨.ok none, synchronize rest, complaints⟩ := by
      rw [heq]
      exact recovering_of_malformed hparsed
    rw [topLevel_of_ok hd] at h ⊢
    obtain ⟨problem, hproblem⟩ := hpoints rfl
    have hleft := h.left_of_mem hproblem hsuffix
    have hp' := hfollows (hleft.symm.imp And.left Or.inl)
    refine topLevel_of_ok ?_
    rw [heq', recovering_of_malformed hp']
    exact congrArg (Parsed.mk _ · _) (synchronize_append (Or.inr hleft))
  · have hd : declaration size budget ts = ⟨.error .tooDeep, rest, complaints⟩ := by
      rw [heq]
      exact recovering_of_tooDeep hparsed
    rw [topLevel_of_error hd] at h ⊢
    have hleft := h.left_of_mem (List.mem_append_right _ (List.mem_singleton_self _)) hsuffix
    have hsafe := hleft.symm.imp_left And.left
    have hd' : declaration size' budget (ts ++ extra) =
        ⟨.error .tooDeep, rest ++ extra, complaints⟩ := by
      rw [heq']
      exact recovering_of_tooDeep (hfollows (hsafe.imp_right Or.inl))
    rw [topLevel_of_error hd', synchronize_append (Or.inr hleft), append_head? hsafe]
    rfl
  · have hd : declaration size budget ts = ⟨.ok (some s), rest, complaints⟩ := by
      rw [heq]
      exact recovering_of_ok hparsed
    rw [topLevel_of_ok hd]
    refine topLevel_of_ok ?_
    rw [heq']
    exact recovering_of_ok (hfollows (Or.inr (Or.inr ⟨rfl, s, rfl⟩)))

/-- A declaration at the top level takes a token, and always comes to a result. -/
theorem topLevel_takes (size budget : Nat) {ts : List Token} (hne : ts ≠ []) :
    ∃ o rest complaints, topLevel size budget ts = ⟨.ok o, rest, complaints⟩ ∧ rest <:+ ts ∧
      rest.length < ts.length := by
  obtain ⟨p, p', hp, heq, -⟩ :=
    (overlooks_statement_and_declaration (Nat.le_refl size) (not_startsWith_nil _) budget).2
  have hsuffix := recovering_suffix hp ts
  have hadvances := advances_recovering hp ts
  rw [← heq] at hsuffix hadvances
  rcases hd : declaration size budget ts with ⟨u | o, rest, complaints⟩ <;>
    rw [hd] at hsuffix hadvances
  · refine ⟨_, _, _, topLevel_of_error hd, (synchronize_suffix rest).trans hsuffix, ?_⟩
    by_cases hrest : rest = []
    · rw [hrest]
      exact List.length_pos_iff.2 hne
    · exact Nat.lt_of_lt_of_le (synchronize_length_lt hrest) hsuffix.length_le
  · exact ⟨o, rest, complaints, topLevel_of_ok hd, hsuffix, hadvances o hne rfl⟩

/-! ## Programs -/

section TopLevel

variable {inner : Parser (Option RawStmt)}

theorem many_topItem_nil (n : Nat) : many (topItem inner) n [] = ⟨.ok [], [], []⟩ := by
  cases n with
  | zero => rfl
  | succ n => rfl

theorem many_topItem_cons {n : Nat} {ts rest rest' : List Token} {o : Option RawStmt}
    {os : List (Option RawStmt)} {complaints complaints' : List Complaint} (hne : ts ≠ [])
    (h : inner ts = ⟨.ok o, rest, complaints⟩)
    (hmore : many (topItem inner) n rest = ⟨.ok os, rest', complaints'⟩) :
    many (topItem inner) (n + 1) ts = ⟨.ok (o :: os), rest', complaints ++ complaints'⟩ := by
  have hitem : topItem inner ts = ⟨.ok (some o), rest, complaints⟩ := by
    obtain ⟨t, us, rfl⟩ := List.exists_cons_of_ne_nil hne
    have hmap : topItem inner (t :: us) = (some <$> inner) (t :: us) := rfl
    rw [hmap, map_apply, h]
    rfl
  have hcons : ((o :: ·) <$> many (topItem inner) n) rest =
      ⟨.ok (o :: os), rest', complaints'⟩ := by
    rw [map_apply, hmore]
    rfl
  have hmany : many (topItem inner) (n + 1) ts =
      ⟨(((o :: ·) <$> many (topItem inner) n) rest).outcome,
        (((o :: ·) <$> many (topItem inner) n) rest).rest,
        complaints ++ (((o :: ·) <$> many (topItem inner) n) rest).complaints⟩ := bind_of_ok hitem
  rw [hmany, hcons]

end TopLevel

/-- Reading a program comes to the end of its tokens. -/
theorem many_topLevel (size budget : Nat) {n : Nat} {ts : List Token} (hn : ts.length ≤ n) :
    ∃ os complaints,
      many (topItem (topLevel size budget)) n ts = ⟨.ok os, [], complaints⟩ := by
  induction n generalizing ts with
  | zero =>
    obtain rfl : ts = [] := List.length_eq_zero_iff.1 (by omega)
    exact ⟨[], [], rfl⟩
  | succ n ih =>
    by_cases hne : ts = []
    · subst hne
      exact ⟨[], [], many_topItem_nil _⟩
    · obtain ⟨o, rest, complaints, htop, -, hlt⟩ := topLevel_takes size budget hne
      obtain ⟨os, complaints', hmore⟩ := ih (show rest.length ≤ n by omega)
      exact ⟨_, _, many_topItem_cons hne htop hmore⟩

/-- Behind settled tokens the rest is read as it is read alone. The induction follows the
declarations; what one of them complains about is a part of what the program complains about, so
each of them is settled. -/
theorem many_topLevel_append {budget : Nat} (hsize : size + extra.length ≤ size')
    (hextra : ¬ StartsWith (.keyword .elseWord) extra) {os bs : List (Option RawStmt)}
    {complaints complaints' : List Complaint}
    (hbehind : ∀ m, extra.length ≤ m →
      many (topItem (topLevel size' budget)) m extra = ⟨.ok bs, [], complaints'⟩)
    {n n' : Nat} {ts : List Token} (hn : ts.length ≤ n) (hts : ts.length ≤ size)
    (hn' : ts.length + extra.length ≤ n')
    (hread : many (topItem (topLevel size budget)) n ts = ⟨.ok os, [], complaints⟩)
    (h : Settled extra ts complaints) :
    many (topItem (topLevel size' budget)) n' (ts ++ extra) =
      ⟨.ok (os ++ bs), [], complaints ++ complaints'⟩ := by
  induction n generalizing n' ts os complaints with
  | zero =>
    obtain rfl : ts = [] := List.length_eq_zero_iff.1 (by omega)
    cases hread
    exact hbehind n' (by simpa using hn')
  | succ n ih =>
    by_cases hne : ts = []
    · subst hne
      rw [many_topItem_nil] at hread
      cases hread
      exact hbehind n' (by simpa using hn')
    obtain ⟨o, rest, here, htop, hsuffix, hlt⟩ := topLevel_takes size budget hne
    obtain ⟨os', later, hmore⟩ := many_topLevel size budget (show rest.length ≤ n by omega)
    rw [many_topItem_cons hne htop hmore] at hread
    cases hread
    obtain ⟨n', rfl⟩ : ∃ m, n' = m + 1 := ⟨n' - 1, by have := List.length_pos_iff.2 hne; omega⟩
    have hhere : Settled extra ts here :=
      h.mono (List.subset_append_left _ _) (List.suffix_refl _) (absurd · hne)
    have hlater : Settled extra rest later := by
      refine h.mono (List.subset_append_right _ _) hsuffix ?_
      rintro rfl
      rw [many_topItem_nil] at hmore
      cases hmore
      rfl
    have htop' : topLevel size' budget (ts ++ extra) = ⟨.ok o, rest ++ extra, here⟩ := by
      rw [topLevel_append hsize hextra hts (by rw [htop]; exact hhere), htop]
      rfl
    have hmore' := ih (by omega) (by omega) (show rest.length + extra.length ≤ n' by omega) hmore
      hlater
    have hne' : ts ++ extra ≠ [] := by simp [hne]
    rw [many_topItem_cons hne' htop' hmore', List.append_assoc, List.cons_append]

end Scriptling.Parser

namespace Scriptling

open Scriptling.Parser

/-- What a program is read as, and what is complained about, by its declarations. -/
theorem parse_eq {limit : Nat} {ts : List Token} {os : List (Option RawStmt)}
    {complaints : List Complaint}
    (h : many (topItem (topLevel ts.length limit)) ts.length ts = ⟨.ok os, [], complaints⟩) :
    parse limit ts = ⟨os.reduceOption, complaints⟩ := by
  have hprogram : program ts.length limit ts =
      (List.reduceOption <$> many (topItem (topLevel ts.length limit)) ts.length) ts := rfl
  rw [parse, hprogram, map_apply, h]
  rfl

/-- A program in a longer source is read as it is read alone. -/
theorem many_topLevel_of_le {size limit n : Nat} {ts : List Token} {os : List (Option RawStmt)}
    {complaints : List Complaint} (hsize : ts.length ≤ size) (hn : ts.length ≤ n)
    (h : many (topItem (topLevel ts.length limit)) ts.length ts = ⟨.ok os, [], complaints⟩) :
    many (topItem (topLevel size limit)) n ts = ⟨.ok os, [], complaints⟩ := by
  have happend := many_topLevel_append (by simpa using hsize) (not_startsWith_nil _)
    (fun m _ => many_topItem_nil m) (Nat.le_refl _) (Nat.le_refl _) (by simpa using hn) h
    (Or.inl rfl)
  simpa only [List.append_nil] using happend

/-- Only at the end of a source does it matter where that is. -/
theorem Complaint.error_of_token {c : Complaint} (h : c.token? ≠ none) (endLine endLine' : Int) :
    c.error endLine = c.error endLine' := by
  obtain ⟨t, ht⟩ := Option.ne_none_iff_exists'.1 h
  rw [Complaint.error, Complaint.error, ht]

/-- Behind settled tokens other ones are read as they are read alone, faults and all. -/
theorem parse_append (limit : Nat) (first second : List Token)
    (hsecond : ¬ StartsWith (.keyword .elseWord) second)
    (hfirst : (parse limit first).complaints = [] ∨
      EndsWithSemicolon first ∧ ∀ c ∈ (parse limit first).complaints, c.token? ≠ none) :
    parse limit (first ++ second) =
      ⟨(parse limit first).statements ++ (parse limit second).statements,
        (parse limit first).complaints ++ (parse limit second).complaints⟩ := by
  obtain ⟨os, complaints, hos⟩ := many_topLevel first.length limit (Nat.le_refl first.length)
  obtain ⟨bs, complaints', hbs⟩ := many_topLevel second.length limit (Nat.le_refl second.length)
  have hlength : (first ++ second).length = first.length + second.length := List.length_append
  have hbehind : ∀ m, second.length ≤ m →
      many (topItem (topLevel (first ++ second).length limit)) m second =
        ⟨.ok bs, [], complaints'⟩ := fun m hm => many_topLevel_of_le (by omega) hm hbs
  rw [parse_eq hos] at hfirst ⊢
  have hboth := many_topLevel_append (Nat.le_of_eq hlength.symm) hsecond hbehind (Nat.le_refl _)
    (Nat.le_refl _) (Nat.le_of_eq hlength.symm) hos (Or.inr hfirst)
  rw [parse_eq hboth, parse_eq hbs, List.reduceOption_append]

/-- Let `first` be read without a fault, or let it end with a semicolon and have no fault at its
end. Behind it `second` is read as it is read alone, unless it starts with an `else`: the statements
of the two are those of `first` and then those of `second`, and so are the errors. -/
theorem parse_append_recovered (limit : Nat) (first second : List Token)
    (hsecond : ¬ StartsWith (.keyword .elseWord) second)
    (hfirst : (parse limit first).complaints = [] ∨
      EndsWithSemicolon first ∧ ∀ c ∈ (parse limit first).complaints, c.token? ≠ none) :
    (parse limit (first ++ second)).statements =
        (parse limit first).statements ++ (parse limit second).statements ∧
      (parse limit (first ++ second)).complaints =
        (parse limit first).complaints ++ (parse limit second).complaints ∧
      ∀ firstEnd secondEnd,
        (parse limit (first ++ second)).complaints.map (·.error secondEnd) =
          (parse limit first).complaints.map (·.error firstEnd) ++
            (parse limit second).complaints.map (·.error secondEnd) := by
  rw [parse_append limit first second hsecond hfirst]
  refine ⟨rfl, rfl, fun firstEnd secondEnd => ?_⟩
  rw [List.map_append]
  congr 1
  refine List.map_congr_left fun c hc => ?_
  obtain hnil | ⟨-, htokens⟩ := hfirst
  · rw [hnil] at hc
    cases hc
  · exact Complaint.error_of_token (htokens c hc) _ _

/-- Faults in a block, in a branch and at the target of an assignment, with a semicolon behind. -/
def faultyTokens : List Token :=
  (lex "\x7b var = 1; print 2; \x7d if (x) y 3; 4 + 5 = z;").tokens

/-- A fault in a statement, and one at the end. -/
def brokenTokens : List Token := (lex "print; var a = f(1, \x7b").tokens

theorem faultyTokens_append_brokenTokens :
    (parse nestingLimit faultyTokens).complaints.map (·.problem) =
        [.variableName, .semicolonAfterExpression, .assignmentTarget] ∧
      (∀ c ∈ (parse nestingLimit faultyTokens).complaints, c.token? ≠ none) ∧
      (parse nestingLimit brokenTokens).complaints.map (·.problem) = [.expression, .expression] ∧
      (parse nestingLimit (faultyTokens ++ brokenTokens)).statements =
        (parse nestingLimit faultyTokens).statements ++
          (parse nestingLimit brokenTokens).statements ∧
      (parse nestingLimit (faultyTokens ++ brokenTokens)).complaints =
        (parse nestingLimit faultyTokens).complaints ++
          (parse nestingLimit brokenTokens).complaints := by
  have hsecond : ¬ StartsWith (.keyword .elseWord) brokenTokens := by
    rintro ⟨t, rest, htokens, hkind⟩
    have hhead : brokenTokens.head?.map Token.kind = some (.keyword .printWord) := by decide +kernel
    rw [htokens] at hhead
    simp [hkind] at hhead
  have hsemicolon : faultyTokens.getLast?.map Token.kind = some .semicolon := by decide +kernel
  have hmet : ∀ c ∈ (parse nestingLimit faultyTokens).complaints, c.token? ≠ none := by
    decide +kernel
  obtain ⟨hstatements, hcomplaints, -⟩ := parse_append_recovered nestingLimit faultyTokens
    brokenTokens hsecond (Or.inr ⟨hsemicolon, hmet⟩)
  exact ⟨by decide +kernel, hmet, by decide +kernel, hstatements, hcomplaints⟩

end Scriptling
