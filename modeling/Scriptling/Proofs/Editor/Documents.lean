-- The documents of an editor under any sequence of events, in whatever way changes edit a text. At
-- each address the text, its index and the diagnostics shown last are those that the events at this
-- address leave, and no other address has a part in it. An event whose text nests too deeply to be
-- indexed is refused and changes nothing.
import Scriptling.Proofs.Editor.Nesting

namespace Scriptling.Editor

variable (E : Editing)

/-! ## Events in turn -/

/-- What an editor has before it: the open documents, and the diagnostics that were published at
each address, the latest first. -/
structure Desk where
  documents : Documents
  published : List (String × List Diagnostic)

namespace Desk

/-- Nothing is open, and nothing was published. -/
def clear : Desk := ⟨.empty, []⟩

/-- The desk after an event. One that is refused changes nothing. -/
def handle (d : Desk) (address : String) (e : Event) : Desk :=
  match d.documents.handle? address e E with
  | some (documents, found) => ⟨documents, (address, found) :: d.published⟩
  | none => d

/-- The desk after events, each at its address. -/
def handleAll (d : Desk) (events : List (String × Event)) : Desk :=
  events.foldl (fun d (address, e) => d.handle E address e) d

theorem handleAll_cons (d : Desk) (address : String) (e : Event) (rest : List (String × Event)) :
    d.handleAll E ((address, e) :: rest) = (d.handle E address e).handleAll E rest := rfl

def Refuses (d : Desk) (address : String) (e : Event) : Prop :=
  d.documents.handle? address e E = none

instance (d : Desk) (address : String) (e : Event) : Decidable (d.Refuses E address e) :=
  inferInstanceAs (Decidable (_ = none))

/-- The events that are not refused. -/
def handled (d : Desk) : List (String × Event) → List (String × Event)
  | [] => []
  | (address, e) :: rest =>
    if d.Refuses E address e then handled d rest
    else (address, e) :: handled (d.handle E address e) rest

end Desk

/-- The events at one address. -/
def eventsAt (address : String) (events : List (String × Event)) : List Event :=
  (events.filter fun x => x.1 = address).map Prod.snd

theorem eventsAt_cons_self (address : String) (e : Event) (rest : List (String × Event)) :
    eventsAt address ((address, e) :: rest) = e :: eventsAt address rest := by
  simp [eventsAt]

theorem eventsAt_cons_of_ne {address other : String} (h : address ≠ other) (e : Event)
    (rest : List (String × Event)) :
    eventsAt address ((other, e) :: rest) = eventsAt address rest := by
  simp [eventsAt, Ne.symm h]

/-! ## What a history leaves -/

/-- The text behind all events at an address: the one that was opened last with all changes since,
or the empty one with all changes since it was closed. -/
inductive Leaves : List Event → Option String → Prop
  | nothing : Leaves [] none
  | closed (before : List Event) : Leaves (before ++ [.closed]) none
  | opened (before : List Event) (text : String) (changes : List (List Change)) :
      Leaves (before ++ .opened text :: changes.map .changed)
        (some (E.applyAll changes.flatten text))
  | fresh (first : List Change) (changes : List (List Change)) :
      Leaves ((first :: changes).map .changed) (some (E.applyAll (first :: changes).flatten ""))
  | reopened (before : List Event) (first : List Change) (changes : List (List Change)) :
      Leaves (before ++ .closed :: (first :: changes).map .changed)
        (some (E.applyAll (first :: changes).flatten ""))

/-- The text that one event makes of another, none if the document is closed. -/
def Event.textFrom (old? : Option String) : Event → Option String
  | .opened text => some text
  | .changed changes => some (E.applyAll changes (old?.getD ""))
  | .closed => none

variable {E}

theorem applyAll_flatten_concat (changes : List (List Change)) (last : List Change)
    (text : String) :
    E.applyAll (changes ++ [last]).flatten text =
      E.applyAll last (E.applyAll changes.flatten text) := by
  rw [List.flatten_concat, E.applyAll_append]

theorem map_changed_concat (changes : List (List Change)) (last : List Change) :
    changes.map Event.changed ++ [.changed last] = (changes ++ [last]).map .changed := by
  simp

/-- One more event. -/
theorem Leaves.concat {history : List Event} {old? : Option String} (h : Leaves E history old?)
    (e : Event) : Leaves E (history ++ [e]) (e.textFrom E old?) := by
  cases e with
  | opened text => exact .opened history text []
  | closed => exact .closed history
  | changed last =>
    -- the changes since the text was opened or closed are one more
    rw [Event.textFrom]
    cases h with
    | nothing =>
      have hleaves : Leaves E _ _ := .fresh last []
      rw [List.flatten_singleton] at hleaves
      exact hleaves
    | closed before =>
      have hleaves : Leaves E _ _ := .reopened before last []
      rw [List.flatten_singleton] at hleaves
      rw [List.append_assoc]
      exact hleaves
    | opened before text changes =>
      have hleaves : Leaves E _ _ := .opened before text (changes ++ [last])
      rw [applyAll_flatten_concat, ← map_changed_concat] at hleaves
      rw [List.append_assoc]
      exact hleaves
    | fresh first changes =>
      have hleaves : Leaves E _ _ := .fresh first (changes ++ [last])
      rw [← List.cons_append, applyAll_flatten_concat, ← map_changed_concat] at hleaves
      exact hleaves
    | reopened before first changes =>
      have hleaves : Leaves E _ _ := .reopened before first (changes ++ [last])
      rw [← List.cons_append, applyAll_flatten_concat, ← map_changed_concat] at hleaves
      rw [List.append_assoc]
      exact hleaves

/-- There is a text unless the last event closed the document. -/
theorem Leaves.isSome_iff {history : List Event} {text? : Option String}
    (h : Leaves E history text?) :
    text?.isSome = true ↔ ∃ e, history.getLast? = some e ∧ e ≠ .closed := by
  cases h with
  | nothing => simp
  | closed before => simp
  | opened before text changes =>
    cases changes with
    | nil => simp
    | cons first changes => simp [List.getLast?_cons]
  | fresh first changes => simp [List.getLast?_cons]
  | reopened before first changes => simp [List.getLast?_cons]

/-! ## One event -/

/-- The text stored at an address. -/
def Desk.text? (d : Desk) (address : String) : Option String :=
  (d.documents.get? address).map Document.text

/-- The statements of a text do not nest too deeply to look for declarations. -/
def Indexable (text : String) : Prop :=
  declarationLevelsInAll (read nestingLimit text).statements ≤ walkLimit

theorem not_indexable_loopText {n : Nat} (h : n ≤ 486) (hdeep : walkLimit < 3 * n) :
    ¬ Indexable (loopText n) := by
  unfold Indexable
  rw [statements_loopText h, declarationLevelsInAll, declarationLevelsInAll,
    declarationLevels_loops]
  omega

theorem ofText?_eq_none_iff (text : String) :
    Document.ofText? text = none ↔ ¬ Indexable text := by
  unfold Document.ofText? Index.ofText? Indexable
  dsimp only
  split <;> simp_all

theorem ofText?_eq_some_iff (text : String) (doc : Document) :
    Document.ofText? text = some doc ↔ doc.text = text ∧ Index.ofText? text = some doc.index := by
  unfold Document.ofText?
  rw [Option.map_eq_some_iff]
  constructor
  · rintro ⟨i, hi, rfl⟩
    exact ⟨rfl, hi⟩
  · rintro ⟨rfl, hi⟩
    exact ⟨doc.index, hi, rfl⟩

namespace Desk

variable {d : Desk} {address other : String} {e : Event}

/-- An event stores its text with the index of it, closes the document, or is refused because its
text has no index. -/
theorem handle_cases (E : Editing) (d : Desk) (address : String) (e : Event) :
    (∃ doc : Document, e.textFrom E (d.text? address) = some doc.text ∧
      Index.ofText? doc.text = some doc.index ∧ ¬ d.Refuses E address e ∧
      d.handle E address e = ⟨d.documents.put address doc,
        (address, diagnostics doc.text doc.index) :: d.published⟩) ∨
    (e.textFrom E (d.text? address) = none ∧ ¬ d.Refuses E address e ∧
      d.handle E address e = ⟨d.documents.erase address, (address, []) :: d.published⟩) ∨
    (∃ text, e.textFrom E (d.text? address) = some text ∧ ¬ Indexable text ∧
      d.Refuses E address e ∧ d.handle E address e = d) := by
  have hstore : ∀ text, e.textFrom E (d.text? address) = some text →
      d.documents.handle? address e E = d.documents.update? address text := by
    intro text htext
    cases e with
    | opened => cases htext; rfl
    | changed changes =>
      cases htext
      rw [Documents.handle?, Desk.text?]
      cases d.documents.get? address <;> rfl
    | closed => cases htext
  unfold Refuses handle
  cases htext : e.textFrom E (d.text? address) with
  | some text =>
    rw [hstore text htext, Documents.update?]
    cases hdoc : Document.ofText? text with
    | some doc =>
      obtain ⟨rfl, hindex⟩ := (ofText?_eq_some_iff text doc).1 hdoc
      exact Or.inl ⟨doc, rfl, hindex, by simp, rfl⟩
    | none => exact Or.inr (Or.inr ⟨text, rfl, (ofText?_eq_none_iff text).1 hdoc, rfl, rfl⟩)
  | none =>
    cases e with
    | opened | changed => cases htext
    | closed => exact Or.inr (Or.inl ⟨rfl, by simp [Documents.handle?], rfl⟩)

theorem refuses_iff :
    d.Refuses E address e ↔
      ∃ text, e.textFrom E (d.text? address) = some text ∧ ¬ Indexable text := by
  obtain ⟨doc, htext, hindex, hkept, -⟩ | ⟨htext, hkept, -⟩ | ⟨text, htext, hdeep, hrefused, -⟩ :=
    d.handle_cases E address e
  · have hdoc := (ofText?_eq_some_iff doc.text doc).2 ⟨rfl, hindex⟩
    refine iff_of_false hkept ?_
    rintro ⟨text, htext', hdeep⟩
    rw [htext] at htext'
    cases htext'
    rw [(ofText?_eq_none_iff doc.text).2 hdeep] at hdoc
    cases hdoc
  · exact iff_of_false hkept (by simp [htext])
  · exact iff_of_true hrefused ⟨text, htext, hdeep⟩

theorem handle_of_refuses (h : d.Refuses E address e) : d.handle E address e = d := by
  unfold Refuses at h
  rw [handle, h]

/-- An event at one address changes nothing at another. -/
theorem handle_other (h : address ≠ other) :
    (d.handle E other e).documents.get? address = d.documents.get? address ∧
      (d.handle E other e).published.lookup address = d.published.lookup address := by
  have hlookup : ∀ found, ((other, found) :: d.published).lookup address =
      d.published.lookup address := by
    intro found
    rw [List.lookup_cons, beq_false_of_ne h]
  obtain ⟨doc, -, -, -, heq⟩ | ⟨-, -, heq⟩ | ⟨text, -, -, -, heq⟩ := d.handle_cases E other e
  · rw [heq]
    exact ⟨Bindings.get?_put_of_ne _ h _, hlookup _⟩
  · rw [heq]
    exact ⟨Bindings.get?_erase_of_ne _ h, hlookup _⟩
  · rw [heq]
    exact ⟨rfl, rfl⟩

end Desk

/-! ## Coherence -/

/-- A stored document and the diagnostics shown last fit the events at their address. -/
structure Coherent (E : Editing) (history : List Event) (doc? : Option Document)
    (shown? : Option (List Diagnostic)) : Prop where
  text : Leaves E history (doc?.map Document.text)
  index : ∀ doc ∈ doc?, Index.ofText? doc.text = some doc.index
  shown : ∀ doc ∈ doc?, shown? = some (diagnostics doc.text doc.index)
  hidden : doc? = none → history ≠ [] → shown? = some []
  silent : history = [] → shown? = none

/-- The desk is coherent at an address, where the given events were handled. -/
def Desk.CoherentAt (E : Editing) (d : Desk) (address : String) (history : List Event) : Prop :=
  Coherent E history (d.documents.get? address) (d.published.lookup address)

theorem Desk.clear_coherent (E : Editing) (address : String) :
    Desk.clear.CoherentAt E address [] where
  text := .nothing
  index doc hdoc := by cases hdoc
  shown doc hdoc := by cases hdoc
  hidden _ hhistory := absurd rfl hhistory
  silent _ := rfl

/-- One more event at the address. -/
theorem Desk.CoherentAt.handle {d : Desk} {address : String} {history : List Event}
    (h : d.CoherentAt E address history) {e : Event} (hkept : ¬ d.Refuses E address e) :
    (d.handle E address e).CoherentAt E address (history ++ [e]) := by
  have hleaves := h.text.concat e
  have hnonempty : history ++ [e] ≠ [] := by simp
  unfold Desk.CoherentAt
  obtain ⟨doc, htext, hindex, -, heq⟩ | ⟨htext, -, heq⟩ | ⟨text, -, -, hrefused, -⟩ :=
    d.handle_cases E address e
  · rw [Desk.text?] at htext
    rw [htext] at hleaves
    rw [heq, Bindings.get?_put_self, List.lookup_cons_self]
    refine ⟨hleaves, ?_, ?_, fun hnone => (nomatch hnone), fun hnil => absurd hnil hnonempty⟩
    · intro doc' hdoc'
      cases hdoc'
      exact hindex
    · intro doc' hdoc'
      cases hdoc'
      rfl
  · rw [Desk.text?] at htext
    rw [htext] at hleaves
    rw [heq, Bindings.get?_erase_self, List.lookup_cons_self]
    exact ⟨hleaves, fun doc hdoc => (nomatch hdoc), fun doc hdoc => (nomatch hdoc), fun _ _ => rfl,
      fun hnil => absurd hnil hnonempty⟩
  · exact absurd hrefused hkept

theorem Desk.CoherentAt.handle_other {d : Desk} {address other : String} {history : List Event}
    (h : d.CoherentAt E address history) (hother : address ≠ other) (e : Event) :
    (d.handle E other e).CoherentAt E address history := by
  obtain ⟨hdoc, hshown⟩ := Desk.handle_other (d := d) (e := e) hother
  unfold Desk.CoherentAt
  rw [hdoc, hshown]
  exact h

/-- All events in turn. -/
theorem Desk.CoherentAt.handleAll {d : Desk} {address : String} {history : List Event}
    (h : d.CoherentAt E address history) (events : List (String × Event)) :
    (d.handleAll E events).CoherentAt E address
      (history ++ eventsAt address (d.handled E events)) := by
  induction events generalizing d history with
  | nil =>
    rw [Desk.handled, eventsAt, List.filter_nil, List.map_nil, List.append_nil]
    exact h
  | cons x rest ih =>
    obtain ⟨other, e⟩ := x
    rw [Desk.handleAll_cons, Desk.handled]
    by_cases hrefused : d.Refuses E other e
    · rw [if_pos hrefused, Desk.handle_of_refuses hrefused]
      exact ih h
    · rw [if_neg hrefused]
      by_cases hother : address = other
      · subst hother
        rw [eventsAt_cons_self, List.append_cons]
        exact ih (h.handle hrefused)
      · rw [eventsAt_cons_of_ne hother]
        exact ih (h.handle_other hother e)

/-! ## Any sequence of events -/

theorem Desk.handled_sublist (E : Editing) (d : Desk) (events : List (String × Event)) :
    (d.handled E events).Sublist events := by
  induction events generalizing d with
  | nil => exact .slnil
  | cons x rest ih =>
    obtain ⟨address, e⟩ := x
    rw [Desk.handled]
    split
    · exact (ih d).cons _
    · exact (ih _).cons_cons _

/-- No event is refused exactly if every text on the way can be indexed. -/
theorem Desk.handled_eq_self_iff (E : Editing) (d : Desk) (events : List (String × Event)) :
    d.handled E events = events ↔
      ∀ before address e after, events = before ++ (address, e) :: after →
        ∀ text, e.textFrom E ((d.handleAll E before).text? address) = some text →
          Indexable text := by
  induction events generalizing d with
  | nil => simp [Desk.handled]
  | cons x rest ih =>
    obtain ⟨address, e⟩ := x
    rw [Desk.handled]
    by_cases hrefused : d.Refuses E address e
    · rw [if_pos hrefused]
      obtain ⟨text, htext, hdeep⟩ := Desk.refuses_iff.1 hrefused
      refine iff_of_false (fun heq => ?_) fun hall => hdeep (hall [] address e rest rfl text htext)
      have hlength := (d.handled_sublist E rest).length_le
      rw [heq, List.length_cons] at hlength
      omega
    · rw [if_neg hrefused, List.cons_inj_right, ih]
      constructor
      · rintro hrest (_ | ⟨y, before⟩) other e' after heq text htext
        · cases heq
          refine Classical.byContradiction fun hdeep => hrefused ?_
          exact Desk.refuses_iff.2 ⟨text, htext, hdeep⟩
        · cases heq
          exact hrest before other e' after rfl text htext
      · rintro hall before other e' after rfl
        exact hall ((address, e) :: before) other e' after rfl

/-- In whatever way changes edit a text, under any sequence of events the document at an address
follows those events at this address that are not refused: whether it is stored and with which text,
its index, and the diagnostics shown last. An event elsewhere changes none of it. All events count
exactly if every text on the way can be indexed. -/
theorem documents_follow_events (E : Editing) (events : List (String × Event)) (address : String) :
    let d := Desk.clear.handleAll E events
    let handled := Desk.clear.handled E events
    let history := eventsAt address handled
    let doc? := d.documents.get? address
    let shown? := d.published.lookup address
    (doc?.isSome = true ↔ ∃ e, history.getLast? = some e ∧ e ≠ .closed) ∧
      Coherent E history doc? shown? ∧
      (∀ other e, address ≠ other → (d.handle E other e).documents.get? address = doc? ∧
        (d.handle E other e).published.lookup address = shown?) ∧
      (handled = events ↔ ∀ before other e after, events = before ++ (other, e) :: after →
        ∀ text, e.textFrom E ((Desk.clear.handleAll E before).text? other) = some text →
          Indexable text) := by
  intro d handled history doc? shown?
  have hcoherent : Coherent E history doc? shown? :=
    (Desk.clear_coherent E address).handleAll events
  refine ⟨?_, hcoherent, fun other e hother => Desk.handle_other hother,
    Desk.clear.handled_eq_self_iff E events⟩
  rw [← hcoherent.text.isSome_iff, Option.isSome_map]

/-- Loops that are read, but too deep to be indexed: they are opened, and yet no document is stored
and nothing is published. -/
theorem deep_loops_not_stored :
    let events := [("a", Event.opened (loopText 400))]
    (read nestingLimit (loopText 400)).statements = [loops 400] ∧
      (∃ e, (eventsAt "a" events).getLast? = some e ∧ e ≠ .closed) ∧
      ∀ E : Editing, let d := Desk.clear.handleAll E events
        d.documents.get? "a" = none ∧ d.published.lookup "a" = none := by
  refine ⟨statements_loopText (by decide), ⟨.opened (loopText 400), rfl, nofun⟩, fun E => ?_⟩
  have hrefused : Desk.clear.Refuses E "a" (.opened (loopText 400)) :=
    Desk.refuses_iff.2 ⟨_, rfl, not_indexable_loopText (by decide) (by decide)⟩
  dsimp only
  rw [Desk.handleAll_cons, Desk.handle_of_refuses hrefused]
  exact ⟨rfl, rfl⟩

end Scriptling.Editor
