-- Readers that do what parsers do. `Follows` says that a reader does with a cursor what a parser
-- does with the tokens that the cursor has before it; its laws take the same steps on both sides
-- and carry along that the cursor is in bounds and that its log is fine.
import Scriptling.Proofs.Grammar.Composition
import Scriptling.Proofs.Grammar.Cursor

namespace Scriptling

/-! ## Cursors in bounds -/

/-- What the log of a run may hold, where the mark of the end is the token number `last`. -/
def Event.Fine (last : Nat) : Event → Prop
  | moved current => current ≤ last
  | lookedBack current => 0 < current
  | declared start stop => start < last ∧ start < stop
  | dropped since now | skipped since now => since < now

/-- The row ends with its only mark of the end. -/
structure Marked (us : List Token) (eof : Token) : Prop where
  last : eof.kind = .eof
  others : ∀ t ∈ us, t.kind ≠ .eof

/-- The cursor is over `us` and a mark of the end, and nothing has gone wrong so far. -/
structure Cursor.Within (us : List Token) (eof : Token) (c : Cursor) : Prop where
  tokens : c.tokens = us ++ [eof]
  current : c.current ≤ us.length
  calls : ∀ start ∈ c.calls, start ≤ c.current ∧ start < us.length
  log : ∀ e ∈ c.log, e.Fine us.length

/-- The cursor got from `c` to `c'`, has `rest` before it and reported what was complained
about. -/
structure Cursor.Reaches (us : List Token) (eof : Token) (c c' : Cursor) (rest : List Token)
    (complaints : List Complaint) : Prop where
  within : c'.Within us eof
  forward : c.current ≤ c'.current
  rest : us.drop c'.current = rest
  errors : c'.errors = c.errors ++ complaints.map (·.error eof.line)

variable {α β : Type} {us : List Token} {eof : Token}

namespace Cursor

theorem Within.reaches {c : Cursor} (h : c.Within us eof) :
    c.Reaches us eof c (us.drop c.current) [] :=
  ⟨h, Nat.le_refl _, rfl, by simp⟩

theorem Reaches.trans {c c' c'' : Cursor} {rest rest' : List Token}
    {complaints complaints' : List Complaint} (h : c.Reaches us eof c' rest complaints)
    (h' : c'.Reaches us eof c'' rest' complaints') :
    c.Reaches us eof c'' rest' (complaints ++ complaints') where
  within := h'.within
  forward := Nat.le_trans h.forward h'.forward
  rest := h'.rest
  errors := by rw [h'.errors, h.errors, List.map_append, List.append_assoc]

/-- A note of something that may be noted. -/
theorem Within.note {c : Cursor} (h : c.Within us eof) {e : Event} (he : e.Fine us.length) :
    ({ c with log := e :: c.log } : Cursor).Within us eof where
  tokens := h.tokens
  current := h.current
  calls := h.calls
  log := List.forall_mem_cons.2 ⟨he, h.log⟩

/-- The cursor after the next token was taken. -/
def taken (c : Cursor) : Cursor :=
  { c with
    current := c.current + 1
    log := .lookedBack (c.current + 1) :: .moved (c.current + 1) :: c.log }

theorem lt_of_drop_eq_cons {c : Cursor} {t : Token} {rest : List Token}
    (h : us.drop c.current = t :: rest) : c.current < us.length := by
  refine Nat.lt_of_not_le fun hle => ?_
  rw [List.drop_eq_nil_of_le hle] at h
  cases h

theorem Within.taken {c : Cursor} (h : c.Within us eof) {t : Token} {rest : List Token}
    (hrest : us.drop c.current = t :: rest) : c.Reaches us eof c.taken rest [] where
  within := by
    have hlt := lt_of_drop_eq_cons hrest
    refine ⟨h.tokens, hlt, ?_, ?_⟩
    · intro start hstart
      have := h.calls start hstart
      simp only [Cursor.taken]
      omega
    · exact List.forall_mem_cons.2 ⟨Nat.succ_pos _, List.forall_mem_cons.2 ⟨hlt, h.log⟩⟩
  forward := Nat.le_succ _
  rest := by
    have := congrArg List.tail hrest
    rwa [List.tail_drop] at this
  errors := by simp [Cursor.taken]

end Cursor

namespace Reader

open Cursor

/-! ## A reader that follows a parser -/

/-- A run of a reader ended as a parser ends. A call for a declaration that did not end is left
open only where the tokens nest too deeply. -/
inductive Ends (us : List Token) (eof : Token) (c : Cursor) :
    Parsed α → EStateM.Result Breach Cursor α → Prop
  | ok {a : α} {c' : Cursor} {rest : List Token} {complaints : List Complaint}
      (reaches : c.Reaches us eof c' rest complaints) (calls : c'.calls = c.calls) :
      Ends us eof c ⟨.ok a, rest, complaints⟩ (.ok a c')
  | malformed {c' : Cursor} {rest : List Token} {complaints : List Complaint}
      (reaches : c.Reaches us eof c' rest complaints) (calls : c'.calls = c.calls)
      (loud : complaints ≠ []) :
      Ends us eof c ⟨.error .malformed, rest, complaints⟩ (.error (.unwind .malformed) c')
  | tooDeep {c' : Cursor} {rest : List Token} {complaints : List Complaint}
      (reaches : c.Reaches us eof c' rest complaints) :
      Ends us eof c ⟨.error .tooDeep, rest, complaints⟩ (.error (.unwind .tooDeep) c')

/-- With at least `least` tokens before the mark of the end, `q` does what `p` does. -/
def Follows (us : List Token) (eof : Token) (least : Nat) (p : Parser α) (q : Reader α) : Prop :=
  ∀ c : Cursor, c.Within us eof → c.current + least ≤ us.length →
    Ends us eof c (p (us.drop c.current)) (q c)

section Laws

variable {p : Parser α} {q : Reader α} {least : Nat}

theorem follows_pure (a : α) : Follows us eof least (pure a) (pure a) :=
  fun _ hc _ => .ok hc.reaches rfl

theorem follows_tooDeep : Follows us eof least (Parser.tooDeep : Parser α) tooDeep :=
  fun _ hc _ => .tooDeep hc.reaches

theorem bind_of_ok {g : α → Reader β} {c c' : Cursor} {a : α} (h : q c = .ok a c') :
    (q >>= g) c = g a c' := by
  show EStateM.bind q g c = _
  rw [EStateM.bind, h]

theorem bind_of_error {g : α → Reader β} {c c' : Cursor} {e : Breach} (h : q c = .error e c') :
    (q >>= g) c = .error e c' := by
  show EStateM.bind q g c = _
  rw [EStateM.bind, h]

/-- One step, and what comes behind it. -/
theorem Ends.bind {c : Cursor} {ts : List Token} {f : α → Parser β} {g : α → Reader β}
    (h : Ends us eof c (p ts) (q c))
    (hf : ∀ a c' rest complaints, p ts = ⟨.ok a, rest, complaints⟩ → q c = .ok a c' →
      c.Reaches us eof c' rest complaints → Ends us eof c' (f a rest) (g a c')) :
    Ends us eof c ((p >>= f) ts) ((q >>= g) c) := by
  generalize hp : p ts = parsed at h
  generalize hq : q c = result at h
  cases h with
  | @ok a c' rest complaints reaches calls =>
    have hnext := hf a c' rest complaints hp hq reaches
    rw [Parser.bind_of_ok hp, bind_of_ok hq]
    generalize f a rest = parsed at hnext
    generalize g a c' = result at hnext
    cases hnext with
    | ok reaches' calls' => exact .ok (reaches.trans reaches') (calls'.trans calls)
    | malformed reaches' calls' loud =>
      exact .malformed (reaches.trans reaches') (calls'.trans calls) (by simp [loud])
    | tooDeep reaches' => exact .tooDeep (reaches.trans reaches')
  | malformed reaches calls loud =>
    rw [Parser.bind_of_error hp, bind_of_error hq]
    exact .malformed reaches calls loud
  | tooDeep reaches =>
    rw [Parser.bind_of_error hp, bind_of_error hq]
    exact .tooDeep reaches

theorem Follows.bind {f : α → Parser β} {g : α → Reader β} (h : Follows us eof least p q)
    (hf : ∀ a, Follows us eof 0 (f a) (g a)) : Follows us eof least (p >>= f) (q >>= g) := by
  intro c hc hleast
  refine (h c hc hleast).bind fun a c' rest complaints _ _ reaches => ?_
  have hnext := hf a c' reaches.within reaches.within.current
  rwa [reaches.rest] at hnext

theorem Follows.map (f : α → β) (h : Follows us eof least p q) :
    Follows us eof least (f <$> p) (f <$> q) := by
  have hbind : Follows us eof least (p >>= fun a => pure (f a)) (q >>= fun a => pure (f a)) :=
    h.bind fun a => follows_pure (f a)
  have hq : f <$> q = q >>= fun a => pure (f a) := (bind_pure_comp f q).symm
  rw [hq]
  exact hbind

end Laws

/-! ## Single tokens -/

section Tokens

variable {c : Cursor} {t : Token} {rest : List Token}

theorem token_of_cons (hc : c.Within us eof) (h : us.drop c.current = t :: rest) :
    c.tokens[c.current]? = some t := by
  rw [hc.tokens, List.getElem?_append_left (lt_of_drop_eq_cons h), ← List.head?_drop, h]
  rfl

theorem current_of_nil (hc : c.Within us eof) (h : us.drop c.current = []) :
    c.current = us.length :=
  Nat.le_antisymm hc.current (List.drop_eq_nil_iff.1 h)

theorem token_of_nil (hc : c.Within us eof) (h : us.drop c.current = []) :
    c.tokens[c.current]? = some eof := by
  rw [hc.tokens, current_of_nil hc h]
  exact List.getElem?_concat_length

theorem peek_eq (h : c.tokens[c.current]? = some t) : peek c = .ok t c := by
  show tokenAt c.current c = _
  rw [tokenAt, h]

/-- The token before the cursor, once a token was taken. -/
theorem previous_eq (h : 0 < c.current) (ht : c.tokens[c.current - 1]? = some t) :
    previous c = .ok t { c with log := .lookedBack c.current :: c.log } := by
  show (ite (c.current = 0) _ _ : Reader Token) { c with log := .lookedBack c.current :: c.log } = _
  rw [if_neg (Nat.ne_of_gt h)]
  show tokenAt _ _ = _
  rw [tokenAt, ht]

theorem isAtEnd_eq (h : c.tokens[c.current]? = some t) : isAtEnd c = .ok (t.kind == .eof) c :=
  bind_of_ok (peek_eq h)

variable (hmark : Marked us eof)
include hmark

theorem isAtEnd_of_cons (hc : c.Within us eof) (h : us.drop c.current = t :: rest) :
    isAtEnd c = .ok false c := by
  have hmem : t ∈ us := List.mem_of_mem_drop (h ▸ List.mem_cons_self)
  rw [isAtEnd_eq (token_of_cons hc h), beq_false_of_ne (hmark.others t hmem)]

theorem advance_of_cons (hc : c.Within us eof) (h : us.drop c.current = t :: rest) :
    advance c = .ok t c.taken := by
  refine (bind_of_ok (isAtEnd_of_cons hmark hc h)).trans ?_
  exact previous_eq (c := { c with
    current := c.current + 1, log := .moved (c.current + 1) :: c.log }) (Nat.succ_pos _)
    (token_of_cons hc h)

theorem checkIf_of_cons (hc : c.Within us eof) (h : us.drop c.current = t :: rest)
    (q : Kind → Bool) : checkIf q c = .ok (q t.kind) c :=
  (bind_of_ok (isAtEnd_of_cons hmark hc h)).trans (bind_of_ok (peek_eq (token_of_cons hc h)))

theorem acceptIf_of_cons (hc : c.Within us eof) (h : us.drop c.current = t :: rest)
    (q : Kind → Bool) :
    acceptIf q c = if q t.kind then .ok (some t) c.taken else .ok none c := by
  refine (bind_of_ok (checkIf_of_cons hmark hc h q)).trans ?_
  cases q t.kind with
  | true => exact bind_of_ok (advance_of_cons hmark hc h)
  | false => rfl

theorem isAtEnd_of_nil (hc : c.Within us eof) (h : us.drop c.current = []) :
    isAtEnd c = .ok true c := by
  rw [isAtEnd_eq (token_of_nil hc h), hmark.last]
  rfl

theorem checkIf_of_nil (hc : c.Within us eof) (h : us.drop c.current = []) (q : Kind → Bool) :
    checkIf q c = .ok false c :=
  bind_of_ok (isAtEnd_of_nil hmark hc h)

theorem follows_acceptIf (q : Kind → Bool) :
    Follows us eof 0 (Parser.acceptIf q) (acceptIf q) := by
  intro c hc _
  rcases h : us.drop c.current with _ | ⟨t, rest⟩
  · have hrun : acceptIf q c = .ok none c := bind_of_ok (checkIf_of_nil hmark hc h q)
    rw [hrun]
    exact .ok (h ▸ hc.reaches) rfl
  · rw [Parser.acceptIf_cons, acceptIf_of_cons hmark hc h]
    split
    · exact .ok (hc.taken h) rfl
    · exact .ok (h ▸ hc.reaches) rfl

theorem follows_check (k : Kind) : Follows us eof 0 (Parser.check k) (check k) := by
  intro c hc _
  rcases h : us.drop c.current with _ | ⟨t, rest⟩
  · rw [check, checkIf_of_nil hmark hc h]
    exact .ok (h ▸ hc.reaches) rfl
  · rw [check, checkIf_of_cons hmark hc h]
    exact .ok (h ▸ hc.reaches) rfl

/-- A complaint at the end names the mark. -/
theorem error_eq (problem : Problem) :
    (⟨rest.head?, problem⟩ : Complaint).error eof.line =
      .atToken (rest.head?.getD eof) problem := by
  cases rest with
  | nil => simp [Complaint.error, StaticError.atToken, Place.ofToken, hmark.last]
  | cons t rest => rfl

omit hmark in
theorem reaches_complainAt (hc : c.Within us eof) (t : Token) (problem : Problem)
    {complaint : Complaint} (h : complaint.error eof.line = .atToken t problem) :
    c.Reaches us eof { c with errors := c.errors ++ [.atToken t problem] }
      (us.drop c.current) [complaint] where
  within := ⟨hc.tokens, hc.current, hc.calls, hc.log⟩
  forward := Nat.le_refl _
  rest := rfl
  errors := by rw [List.map_singleton, h]

omit hmark in
theorem follows_complainAt (t : Token) (problem : Problem) :
    Follows us eof 0 (Parser.complainAt t problem) (complainAt t problem) :=
  fun _ hc _ => .ok (reaches_complainAt hc t problem rfl) rfl

/-- A complaint about the next token becomes an error, and moves nothing. -/
theorem complain_ends (hc : c.Within us eof) (problem : Problem) :
    ∃ c', complain problem c = .ok () c' ∧
      c.Reaches us eof c' (us.drop c.current) [⟨(us.drop c.current).head?, problem⟩] ∧
      c'.calls = c.calls := by
  have hpeek : peek c = .ok ((us.drop c.current).head?.getD eof) c := by
    rcases h : us.drop c.current with _ | ⟨t, rest⟩
    · exact peek_eq (token_of_nil hc h)
    · exact peek_eq (token_of_cons hc h)
  exact ⟨_, bind_of_ok hpeek, reaches_complainAt hc _ problem (error_eq hmark problem), rfl⟩

theorem follows_complain (problem : Problem) :
    Follows us eof 0 (Parser.complain problem) (complain problem) := by
  intro c hc _
  obtain ⟨c', hrun, reaches, hcalls⟩ := complain_ends hmark hc problem
  rw [hrun]
  exact .ok reaches hcalls

theorem follows_refuse (problem : Problem) :
    Follows us eof 0 (Parser.refuse problem : Parser α) (refuse problem) := by
  intro c hc _
  obtain ⟨c', hcomplain, reaches, hcalls⟩ := complain_ends hmark hc problem
  have hrun : (refuse problem : Reader α) c = _ := bind_of_ok hcomplain
  rw [hrun]
  exact .malformed reaches hcalls (List.cons_ne_nil _ _)

theorem follows_accept (k : Kind) : Follows us eof 0 (Parser.accept k) (accept k) :=
  follows_acceptIf hmark _

theorem follows_acceptWord (k : Keyword) :
    Follows us eof 0 (Parser.acceptWord k) (acceptWord k) := follows_accept hmark _

theorem follows_expect (k : Kind) (problem : Problem) :
    Follows us eof 0 (Parser.expect k problem) (expect k problem) := by
  refine (follows_accept hmark k).bind ?_
  rintro (_ | t)
  · exact follows_refuse hmark problem
  · exact follows_pure t

end Tokens

/-! ## Loops -/

section Loops

variable {c : Cursor} (hmark : Marked us eof)

theorem turns_eq (hc : c.Within us eof) : turns c = .ok (us.length + 1) c := by
  have hlength : c.tokens.length = us.length + 1 := by rw [hc.tokens]; simp
  rw [← hlength]
  rfl

/-- A loop ends before its turns do: each turn takes a token, and none is taken at the end. What
is done in a turn may depend on the rest of the loop, for any cursor further on. -/
theorem ends_loop {σ γ : Type} (loop : Nat → σ → Parser β) (loop' : Nat → σ → Reader β)
    (done : σ → β) (more : (σ → Parser β) → σ → γ → Parser β)
    (more' : (σ → Reader β) → σ → γ → Reader β)
    {step : σ → Parser (Option γ)} {step' : σ → Reader (Option γ)}
    (hzero : ∀ s, loop 0 s = pure (done s))
    (hsucc : ∀ n s, loop (n + 1) s = step s >>= fun
      | none => pure (done s)
      | some a => more (loop n) s a)
    (hsucc' : ∀ n s, loop' (n + 1) s = step' s >>= fun
      | none => pure (done s)
      | some a => more' (loop' n) s a)
    (hstep : ∀ s, Follows us eof 0 (step s) (step' s)) (heats : ∀ s, Parser.Eats (step s))
    (hnil : ∀ s, step s [] = ⟨.ok none, [], []⟩)
    (hmore : ∀ (next : σ → Parser β) (next' : σ → Reader β) s a (c : Cursor), c.Within us eof →
      (∀ s' (c' : Cursor), c'.Within us eof → c.current ≤ c'.current →
        Ends us eof c' (next s' (us.drop c'.current)) (next' s' c')) →
      Ends us eof c (more next s a (us.drop c.current)) (more' next' s a c))
    {n m : Nat} (hc : c.Within us eof) (hn : (us.drop c.current).length ≤ n)
    (hm : (us.drop c.current).length < m) (s : σ) :
    Ends us eof c (loop n s (us.drop c.current)) (loop' m s c) := by
  induction n generalizing m c s with
  | zero =>
    obtain ⟨m, rfl⟩ : ∃ k, m = k + 1 := ⟨m - 1, by omega⟩
    have hend : us.drop c.current = [] := List.length_eq_zero_iff.1 (Nat.le_zero.1 hn)
    have hlist : loop 0 s (us.drop c.current) =
        (step s >>= fun _ => pure (done s)) (us.drop c.current) := by
      rw [hzero, hend, Parser.bind_of_ok (hnil s)]
      rfl
    rw [hlist, hsucc']
    refine (hstep s c hc hc.current).bind fun o c' rest complaints hp _ reaches => ?_
    rw [hend, hnil s] at hp
    cases hp
    exact .ok (reaches.rest ▸ reaches.within.reaches) rfl
  | succ n ih =>
    obtain ⟨m, rfl⟩ : ∃ k, m = k + 1 := ⟨m - 1, by omega⟩
    rw [hsucc, hsucc']
    refine (hstep s c hc hc.current).bind fun o c' rest complaints hp _ reaches => ?_
    have hrest := reaches.rest
    cases o with
    | none => exact .ok (hrest ▸ reaches.within.reaches) rfl
    | some a =>
      have hlt := heats s (us.drop c.current) a (by rw [hp])
      simp only [hp, ← hrest, List.length_drop] at hlt hn hm
      rw [← hrest]
      refine hmore _ _ s a c' reaches.within fun s' c'' hc'' hforward => ?_
      have hlength : (us.drop c''.current).length = us.length - c''.current := List.length_drop
      exact ih hc'' (by omega) (by omega) s'

/-- A loop that may make as many turns as there are tokens, and one more. -/
theorem follows_turns (loop : Nat → Parser α) (loop' : Nat → Reader α)
    (h : ∀ (c : Cursor) (n m : Nat), c.Within us eof → (us.drop c.current).length ≤ n →
      (us.drop c.current).length < m → Ends us eof c (loop n (us.drop c.current)) (loop' m c)) :
    Follows us eof 0 (loop us.length) (turns >>= loop') := by
  intro c hc _
  have hlength : (us.drop c.current).length ≤ us.length := by simp
  rw [bind_of_ok (turns_eq hc)]
  exact h c _ _ hc hlength (Nat.lt_succ_of_le hlength)

theorem follows_iterate {step : α → Parser (Option α)} {step' : α → Reader (Option α)}
    (hstep : ∀ a, Follows us eof 0 (step a) (step' a)) (heats : ∀ a, Parser.Eats (step a))
    (hnil : ∀ a, step a [] = ⟨.ok none, [], []⟩) (a : α) :
    Follows us eof 0 (Parser.iterate step us.length a) (iterate step' a) := by
  refine follows_turns (fun n => Parser.iterate step n a) (fun m => iterateFor step' m a)
    fun c n m hc hn hm => ?_
  refine ends_loop (Parser.iterate step) (iterateFor step') id (fun next _ b => next b)
    (fun next _ b => next b) (fun _ => rfl) (fun n a => ?_) (fun n a => ?_) hstep heats hnil ?_
    hc hn hm a
  · rfl
  · rfl
  · intro next next' a b c hc h
    exact h b c hc (Nat.le_refl _)

theorem follows_many {step : Parser (Option α)} {step' : Reader (Option α)}
    (hstep : Follows us eof 0 step step') (heats : Parser.Eats step)
    (hnil : step [] = ⟨.ok none, [], []⟩) :
    Follows us eof 0 (Parser.many step us.length) (many step') := by
  refine follows_turns (Parser.many step) (manyFor step') fun c n m hc hn hm => ?_
  refine ends_loop (fun n (_ : Unit) => Parser.many step n) (fun m _ => manyFor step' m)
    (fun _ => []) (fun next s a => next s >>= fun rest => pure (a :: rest))
    (fun next s a => next s >>= fun rest => pure (a :: rest)) (fun _ => rfl) (fun n _ => ?_)
    (fun n _ => ?_) (fun _ => hstep) (fun _ => heats) (fun _ => hnil) ?_ hc hn hm ()
  · rfl
  · rfl
  · intro next next' s a c hc h
    refine (h s c hc (Nat.le_refl _)).bind fun as c' rest _ _ _ reaches => ?_
    exact .ok (reaches.rest ▸ reaches.within.reaches) rfl

include hmark in
theorem follows_moreItems {item : Parser α} {item' : Reader α}
    (hitem : Follows us eof 0 item item') (problem : Problem) (count : Nat) :
    Follows us eof 0 (Parser.moreItems item problem us.length count)
      (moreItems item' problem count) := by
  refine follows_turns (fun n => Parser.moreItems item problem n count)
    (fun m => moreItemsFor item' problem m count) fun c n m hc hn hm => ?_
  refine ends_loop (Parser.moreItems item problem) (moreItemsFor item' problem) (fun _ => [])
    (fun next count _ => do
      if argumentLimit ≤ count then Parser.complain problem
      let a ← item
      let rest ← next (count + 1)
      return a :: rest)
    (fun next count _ => do
      if argumentLimit ≤ count then complain problem
      let a ← item'
      let rest ← next (count + 1)
      return a :: rest)
    (fun _ => rfl) (fun n count => ?_) (fun n count => ?_) (fun _ => follows_accept hmark .comma)
    (fun _ => Parser.eats_accept _) (fun _ => rfl) ?_ hc hn hm count
  · exact congrArg (Parser.accept .comma >>= ·) (funext fun o => by cases o <;> rfl)
  · exact congrArg (accept .comma >>= ·) (funext fun o => by cases o <;> rfl)
  · intro next next' count comma c hc h
    -- the items behind this one, wherever the cursor is once it was read
    have hitems : ∀ c' : Cursor, c'.Within us eof → c.current ≤ c'.current →
        Ends us eof c'
          ((do let a ← item; let rest ← next (count + 1); return a :: rest : Parser (List α))
            (us.drop c'.current))
          ((do let a ← item'; let rest ← next' (count + 1); return a :: rest : Reader (List α))
            c') := by
      intro c' hc' hforward
      refine (hitem c' hc' hc'.current).bind fun a c₂ rest₂ _ _ _ reaches₂ => ?_
      rw [← reaches₂.rest]
      have hnext := h (count + 1) c₂ reaches₂.within (Nat.le_trans hforward reaches₂.forward)
      refine hnext.bind fun as c₃ rest₃ _ _ _ reaches₃ => ?_
      exact .ok (reaches₃.rest ▸ reaches₃.within.reaches) rfl
    dsimp only
    split
    · refine (follows_complain hmark problem c hc hc.current).bind
        fun _ c' rest _ _ _ reaches => ?_
      rw [← reaches.rest]
      exact hitems c' reaches.within reaches.forward
    · exact hitems c hc (Nat.le_refl _)

include hmark in
theorem follows_commaSeparated {item : Parser α} {item' : Reader α}
    (hitem : Follows us eof 0 item item') (problem : Problem) :
    Follows us eof 0 (Parser.commaSeparated us.length item problem)
      (commaSeparated item' problem) :=
  hitem.bind fun first => (follows_moreItems hmark hitem problem 1).bind fun rest =>
    follows_pure (first :: rest)

end Loops

/-! ## Recovery -/

section Recovery

variable {c : Cursor} {since : Nat} (hmark : Marked us eof)

include hmark

/-- A token that is skipped is the one before the cursor then. -/
theorem skip_of_cons (hc : c.Within us eof) {t : Token} {rest : List Token}
    (h : us.drop c.current = t :: rest) (hsince : since < c.errors.length) :
    ∃ c', skip since c = .ok () c' ∧ c.Reaches us eof c' rest [] ∧ c'.calls = c.calls ∧
      0 < c'.current ∧ c'.tokens[c'.current - 1]? = some t ∧ since < c'.errors.length := by
  have hnote := hc.note (e := .skipped since c.errors.length) hsince
  have htaken := hnote.taken h
  exact ⟨_, bind_of_ok (advance_of_cons hmark hnote h),
    ⟨htaken.within, htaken.forward, htaken.rest, htaken.errors⟩, rfl, Nat.succ_pos _,
    token_of_cons hc h, hsince⟩

/-- At the mark of the end there is nothing to skip, but the token before it is read. -/
theorem skip_of_nil (hc : c.Within us eof) (h : us.drop c.current = []) (hne : us ≠ [])
    (hsince : since < c.errors.length) :
    ∃ c', skip since c = .ok () c' ∧ c.Reaches us eof c' [] [] ∧ c'.calls = c.calls := by
  have hnote := hc.note (e := .skipped since c.errors.length) hsince
  have hcurrent := current_of_nil hc h
  have hpos : 0 < c.current := hcurrent ▸ List.length_pos_iff.2 hne
  obtain ⟨t, ht⟩ : ∃ t, c.tokens[c.current - 1]? = some t := by
    refine ⟨_, List.getElem?_eq_getElem ?_⟩
    rw [hc.tokens, List.length_append]
    simp only [List.length_singleton]
    omega
  have hprevious := previous_eq (c := { c with log := .skipped since c.errors.length :: c.log })
    hpos ht
  have hadvance : advance { c with log := .skipped since c.errors.length :: c.log } = _ :=
    (bind_of_ok (isAtEnd_of_nil hmark hnote h)).trans hprevious
  refine ⟨_, bind_of_ok hadvance, ⟨hnote.note hpos, Nat.le_refl _, h, by simp⟩, rfl⟩

/-- From behind the token `last`, the cursor skips as far as `skipAfter` does. -/
theorem skipFor_ends {last : Token} {m : Nat} (hc : c.Within us eof)
    (hpos : 0 < c.current) (hlast : c.tokens[c.current - 1]? = some last)
    (hsince : since < c.errors.length) (hm : (us.drop c.current).length < m) :
    ∃ c', skipFor since m c = .ok () c' ∧
      c.Reaches us eof c' (Parser.skipAfter last (us.drop c.current)) [] ∧
      c'.calls = c.calls := by
  induction m generalizing c last with
  | zero => omega
  | succ m ih =>
    rcases h : us.drop c.current with _ | ⟨t, rest⟩
    · refine ⟨c, bind_of_ok (isAtEnd_of_nil hmark hc h), ?_, rfl⟩
      rw [Parser.skipAfter, ← h]
      exact hc.reaches
    · have hlook := hc.note (e := .lookedBack c.current) hpos
      have hreaches := hlook.reaches
      have hprevious : skipFor since (m + 1) c = _ :=
        (bind_of_ok (isAtEnd_of_cons hmark hc h)).trans (bind_of_ok (previous_eq hpos hlast))
      have hpeek := peek_eq (token_of_cons hlook h)
      rw [hprevious, Parser.skipAfter]
      by_cases hsemicolon : last.kind = .semicolon
      · rw [if_pos hsemicolon, if_pos (Or.inl hsemicolon), ← h]
        exact ⟨_, rfl, ⟨hreaches.within, hreaches.forward, rfl, by simp⟩, rfl⟩
      rw [if_neg hsemicolon]
      refine Exists.imp (fun c' => And.imp_left (bind_of_ok hpeek).trans) ?_
      by_cases hstarts : t.kind.startsStatement = true
      · rw [if_pos hstarts, if_pos (Or.inr hstarts), ← h]
        exact ⟨_, rfl, ⟨hreaches.within, hreaches.forward, rfl, by simp⟩, rfl⟩
      rw [if_neg hstarts, if_neg (by simp [hsemicolon, hstarts])]
      obtain ⟨c₁, hskip, reaches₁, hcalls₁, hpos₁, hlast₁, hsince₁⟩ :=
        skip_of_cons hmark hlook h hsince
      have hm₁ : (us.drop c₁.current).length < m := by
        rw [h] at hm
        rw [reaches₁.rest]
        exact Nat.lt_of_succ_lt_succ hm
      obtain ⟨c₂, hrun, reaches₂, hcalls₂⟩ := ih reaches₁.within hpos₁ hlast₁ hsince₁ hm₁
      rw [reaches₁.rest] at reaches₂
      have hboth := reaches₁.trans reaches₂
      exact ⟨c₂, (bind_of_ok hskip).trans hrun,
        ⟨hboth.within, hboth.forward, hboth.rest, hboth.errors⟩, hcalls₂.trans hcalls₁⟩

/-- The cursor skips as far as the parser does, once an error was reported. -/
theorem synchronize_ends (hc : c.Within us eof) (hne : us ≠ []) (hsince : since < c.errors.length) :
    ∃ c', synchronize since c = .ok () c' ∧
      c.Reaches us eof c' (Parser.synchronize (us.drop c.current)) [] ∧ c'.calls = c.calls := by
  rcases h : us.drop c.current with _ | ⟨t, rest⟩
  · obtain ⟨c₁, hskip, reaches₁, hcalls₁⟩ := skip_of_nil hmark hc h hne hsince
    refine ⟨c₁, ?_, reaches₁, hcalls₁⟩
    refine (bind_of_ok hskip).trans ((bind_of_ok (turns_eq reaches₁.within)).trans ?_)
    exact bind_of_ok (isAtEnd_of_nil hmark reaches₁.within reaches₁.rest)
  · obtain ⟨c₁, hskip, reaches₁, hcalls₁, hpos₁, hlast₁, hsince₁⟩ := skip_of_cons hmark hc h hsince
    have hlength : (us.drop c₁.current).length < us.length + 1 := by
      rw [List.length_drop]
      omega
    obtain ⟨c₂, hrun, reaches₂, hcalls₂⟩ :=
      skipFor_ends hmark reaches₁.within hpos₁ hlast₁ hsince₁ hlength
    rw [reaches₁.rest] at reaches₂
    refine ⟨c₂, ?_, reaches₁.trans reaches₂, hcalls₂.trans hcalls₁⟩
    exact (bind_of_ok hskip).trans ((bind_of_ok (turns_eq reaches₁.within)).trans hrun)

theorem abandon_ends (hc : c.Within us eof) (hne : us ≠ []) (hsince : since < c.errors.length) :
    ∃ c', abandon since c = .ok () c' ∧
      c.Reaches us eof c' (Parser.synchronize (us.drop c.current)) [] ∧ c'.calls = c.calls := by
  obtain ⟨c', hsync, reaches, hcalls⟩ := synchronize_ends hmark hc hne hsince
  have hsince' : since < c'.errors.length := by simpa [reaches.errors] using hsince
  exact ⟨_, bind_of_ok hsync, ⟨reaches.within.note (e := .dropped since c'.errors.length) hsince',
    reaches.forward, reaches.rest, reaches.errors⟩, hcalls⟩

omit hmark in
theorem endCall_eq {start : Nat} {calls : List Nat} (h : c.calls = start :: calls) :
    endCall c = .ok () { c with calls := calls, log := .declared start c.current :: c.log } := by
  cases c
  cases h
  rfl

omit hmark in
/-- A call that is over has moved the cursor on. -/
theorem within_endCall (hc : c.Within us eof) {start : Nat} {calls : List Nat}
    (h : c.calls = start :: calls) (hlt : start < c.current) :
    ({ c with calls := calls, log := .declared start c.current :: c.log } : Cursor).Within
      us eof where
  tokens := hc.tokens
  current := hc.current
  calls := fun s hs => hc.calls s (h ▸ List.mem_cons_of_mem _ hs)
  log := by
    have hstart := (hc.calls start (h ▸ List.mem_cons_self)).2
    exact List.forall_mem_cons.2 ⟨⟨hstart, hlt⟩, hc.log⟩

omit hmark in
theorem current_lt_of_rest {c' : Cursor} {rest : List Token} (hrest : us.drop c'.current = rest)
    (hlt : rest.length < (us.drop c.current).length) : c.current < c'.current := by
  rw [← hrest, List.length_drop, List.length_drop] at hlt
  omega

/-- A call for a declaration takes a token, or skips one after an error. -/
theorem follows_recovering {p : Parser α} {q : Reader α} (h : Follows us eof 0 p q)
    (hadvances : Parser.Advances (Parser.recovering p)) :
    Follows us eof 1 (Parser.recovering p) (recovering q) := by
  intro c hc hleast
  have hne : us.drop c.current ≠ [] := by
    rw [Ne, List.drop_eq_nil_iff]
    omega
  have hcalled : ({ c with calls := c.current :: c.calls } : Cursor).Within us eof :=
    ⟨hc.tokens, hc.current, List.forall_mem_cons.2 ⟨⟨Nat.le_refl _, hleast⟩, hc.calls⟩, hc.log⟩
  have hends := h _ hcalled hc.current
  have hadvance := fun o => hadvances (us.drop c.current) o hne
  generalize hp : p (us.drop c.current) = parsed at hends
  generalize hq : q { c with calls := c.current :: c.calls } = result at hends
  cases hends with
  | @ok a c' rest complaints reaches calls =>
    rw [Parser.recovering_of_ok hp] at hadvance ⊢
    have hlt := current_lt_of_rest reaches.rest (hadvance (some a) rfl)
    have hrun : recovering q c = (do endCall; return some a : Reader (Option α)) c' := by
      rw [recovering, hq]
    rw [hrun, bind_of_ok (endCall_eq calls)]
    exact .ok ⟨within_endCall reaches.within calls hlt, reaches.forward, reaches.rest,
      reaches.errors⟩ rfl
  | @malformed c' rest complaints reaches calls loud =>
    rw [Parser.recovering_of_malformed hp] at hadvance ⊢
    have herrors : c'.errors = c.errors ++ complaints.map (·.error eof.line) := reaches.errors
    have hsince : c.errors.length < c'.errors.length := by
      have := List.length_pos_iff.2 loud
      rw [herrors, List.length_append, List.length_map]
      omega
    obtain ⟨c₁, habandon, reaches₁, hcalls₁⟩ :=
      abandon_ends hmark reaches.within (List.ne_nil_of_drop_ne_nil hne) hsince
    rw [reaches.rest] at reaches₁
    have hcalls : c₁.calls = c.current :: c.calls := hcalls₁.trans calls
    have hlt := current_lt_of_rest reaches₁.rest (hadvance none rfl)
    have hrun : recovering q c =
        (do abandon c.errors.length; endCall; return none : Reader (Option α)) c' := by
      rw [recovering, hq]
    have hboth := reaches.trans reaches₁
    rw [List.append_nil] at hboth
    rw [hrun, bind_of_ok habandon, bind_of_ok (endCall_eq hcalls)]
    exact .ok ⟨within_endCall hboth.within hcalls hlt, hboth.forward, hboth.rest, hboth.errors⟩ rfl
  | @tooDeep c' rest complaints reaches =>
    have hrun : recovering q c = .error (.unwind .tooDeep) c' := by
      rw [recovering, hq]
    rw [Parser.recovering_of_tooDeep hp, hrun]
    exact .tooDeep ⟨reaches.within, reaches.forward, reaches.rest, reaches.errors⟩

end Recovery

end Reader

end Scriptling
