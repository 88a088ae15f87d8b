-- The rules of scope. The walk over a program records for each use how far away the nearest
-- scope lies that declares its name, and reports what is wrong with its landmarks, each in its turn
-- and nothing else. Both are read off the landmarks of the program, without the walk.
import Mathlib.Data.List.Forall2
import Scriptling.Proofs.Grammar.Acceptance
import Scriptling.Proofs.Scope.Errors
import Scriptling.Proofs.Scope.Landmarks
import Scriptling.Proofs.Scope.Scoped

namespace Scriptling

open Grammar

/-! ## What landmarks leave in a table -/

/-- A landmark that is a use gets its distance, if it has one. -/
def Sighting.record (distances : Distances) : Sighting → Distances
  | (p, .uses u) =>
    match p.nearest? u.name.lexeme with
    | some d => distances.insert u.label d
    | none => distances
  | (_, .declares _) | (_, .returns _) => distances

namespace Sighting

theorem record_self (p : Surroundings) (u : Use UseId) (distances : Distances) :
    (record distances (p, .uses u))[u.label]? =
      (p.nearest? u.name.lexeme).or distances[u.label]? := by
  unfold record
  dsimp only
  cases p.nearest? u.name.lexeme with
  | none => rfl
  | some d => exact Std.TreeMap.getElem?_insert_self

theorem record_other {x : Sighting} {l : UseId} (h : ∀ u ∈ x.2.use?, u.label ≠ l)
    (distances : Distances) : (record distances x)[l]? = distances[l]? := by
  obtain ⟨p, _ | _ | u⟩ := x
  · rfl
  · rfl
  · have hne : ¬ compare u.label l = .eq := by
      rw [Std.LawfulEqCmp.compare_eq_iff_eq]
      exact h u rfl
    unfold record
    dsimp only
    cases p.nearest? u.name.lexeme with
    | none => rfl
    | some d => exact Std.TreeMap.getElem?_insert.trans (if_neg hne)

theorem foldl_record_other {xs : List Sighting} {l : UseId}
    (h : ∀ u ∈ usesAt xs, u.label ≠ l) (distances : Distances) :
    (xs.foldl record distances)[l]? = distances[l]? := by
  induction xs generalizing distances with
  | nil => rfl
  | cons x xs ih =>
    have hparts : usesAt (x :: xs) = usesAt [x] ++ usesAt xs := usesAt_append [x] xs
    rw [hparts] at h
    rw [List.foldl_cons, ih fun u hu => h u (List.mem_append_right _ hu)]
    refine record_other (fun u hu => h u (List.mem_append_left _ ?_)) distances
    rw [usesAt, List.mem_filterMap]
    exact ⟨x, List.mem_singleton_self x, hu⟩

/-- Where no two uses share a label, each gets its own distance. -/
theorem foldl_record {xs : List Sighting} (hnodup : ((usesAt xs).map Use.label).Nodup)
    {p : Surroundings} {u : Use UseId} (hmem : (p, .uses u) ∈ xs) (distances : Distances) :
    (xs.foldl record distances)[u.label]? =
      (p.nearest? u.name.lexeme).or distances[u.label]? := by
  induction xs generalizing distances with
  | nil => cases hmem
  | cons x xs ih =>
    have hparts : usesAt (x :: xs) = usesAt [x] ++ usesAt xs := usesAt_append [x] xs
    rw [hparts, List.map_append, List.nodup_append] at hnodup
    obtain ⟨-, hrest, hapart⟩ := hnodup
    have hlabel : ∀ {y : Sighting} {ys : List Sighting} {v : Use UseId}, y ∈ ys →
        y.2.use? = some v → v.label ∈ (usesAt ys).map Use.label := by
      intro y ys v hy hv
      exact List.mem_map_of_mem (List.mem_filterMap.2 ⟨y, hy, hv⟩)
    rw [List.foldl_cons]
    obtain rfl | hmem := List.mem_cons.1 hmem
    · rw [foldl_record_other ?_, record_self]
      intro v hv heq
      exact hapart _ (hlabel (List.mem_singleton_self _) rfl) _ (List.mem_map_of_mem hv) heq.symm
    · rw [ih hrest hmem, record_other]
      intro v hv
      exact hapart _ (hlabel (List.mem_singleton_self x) hv) _ (hlabel hmem rfl)

end Sighting

namespace Resolve

/-! ## Scopes and surroundings -/

/-- The scopes of the walk hold the names that lie around, and only the variable that is being
initialized is not finished. -/
structure Mirrors (S : Scopes) (p : Surroundings) : Prop where
  names : List.Forall₂ (fun scope names => ∀ x, scope.binds x = true ↔ x ∈ names) S p.scopes
  pending : ∀ x, S.unfinished x = true ↔ p.scopes ≠ [] ∧ p.initializing = some x

variable {S S' : Scopes} {p : Surroundings} {f f' : Findings}

theorem mirrors_outside : Mirrors [] .outside where
  names := .nil
  pending _ := iff_of_false Bool.false_ne_true fun h => h.1 rfl

theorem Mirrors.distance? (h : Mirrors S p) (x : String) : S.distance? x = p.nearest? x := by
  have hnames := h.names
  clear h
  unfold Scopes.distance? Surroundings.nearest?
  generalize p.scopes = scopes at hnames
  induction hnames with
  | nil => rfl
  | @cons scope names _ _ hx _ ih =>
    have heq : scope.binds x = decide (x ∈ names) := by
      rw [Bool.eq_iff_iff, hx, decide_eq_true_iff]
    rw [List.findIdx?_cons, List.findIdx?_cons, heq, ih]

theorem Mirrors.declared (h : Mirrors S p) (x : String) :
    S.declared x = true ↔ x ∈ p.scopes.headD [] := by
  obtain ⟨inFunction, scopes, initializing⟩ := p
  cases h.names with
  | nil => exact iff_of_false Bool.false_ne_true List.not_mem_nil
  | cons hx _ => exact hx x

theorem Mirrors.settled (h : Mirrors S p) (hcalm : p.initializing = none) (x : String) :
    S.unfinished x = false := by
  rw [← Bool.not_eq_true, h.pending, hcalm]
  rintro ⟨-, hx⟩
  cases hx

theorem names_note {scopes : List (List String)}
    (h : List.Forall₂ (fun scope names => ∀ x, scope.binds x = true ↔ x ∈ names) S scopes)
    (name : String) (ready : Bool) :
    List.Forall₂ (fun scope names => ∀ x, scope.binds x = true ↔ x ∈ names) (S.note name ready)
      (scopes.modifyHead (name :: ·)) := by
  cases h with
  | nil => exact .nil
  | cons hx hrest =>
    refine .cons (fun x => ?_) hrest
    rw [Bindings.binds_put, Bool.or_eq_true, decide_eq_true_iff, hx, List.mem_cons]

theorem unfinished_note (S : Scopes) (name x : String) (ready : Bool) :
    (S.note name ready).unfinished x =
      if x = name then decide (S ≠ []) && !ready else S.unfinished x := by
  cases S with
  | nil => simp [Scopes.note, Scopes.unfinished]
  | cons scope outer =>
    by_cases hx : x = name
    · subst hx
      cases ready <;> simp [Scopes.note, Scopes.unfinished]
    · simp [Scopes.note, Scopes.unfinished, hx, scope.get?_put_of_ne hx]

theorem Mirrors.declare (h : Mirrors S p) (hcalm : p.initializing = none) (name : Token) :
    Mirrors (S.note name.lexeme true) (p.declare name) where
  names := names_note h.names name.lexeme true
  pending x := by
    have hsettled := h.settled hcalm x
    simp [unfinished_note, hsettled, Surroundings.declare, hcalm]

theorem Mirrors.initializer (h : Mirrors S p) (hcalm : p.initializing = none) (name : Token) :
    Mirrors (S.note name.lexeme false) (p.initializer name) where
  names := names_note h.names name.lexeme false
  pending x := by
    have hsettled := h.settled hcalm x
    have hempty : S = [] ↔ p.scopes = [] := by
      rw [← List.length_eq_zero_iff, ← List.length_eq_zero_iff, h.names.length_eq]
    by_cases hx : x = name.lexeme
    · simp [unfinished_note, hx, Surroundings.initializer, Surroundings.declare, hempty]
    · simp [unfinished_note, hx, hsettled, Surroundings.initializer, Ne.symm hx]

theorem Mirrors.inBlock (h : Mirrors S p) (hcalm : p.initializing = none) :
    Mirrors (.empty :: S) p.inBlock where
  names := .cons (fun _ => iff_of_false Bool.false_ne_true List.not_mem_nil) h.names
  pending x := by
    simp [Scopes.unfinished, Bindings.empty, Bindings.get?, Surroundings.inBlock, hcalm]

theorem Mirrors.inside {name : Token} (h : Mirrors S (p.declare name))
    (hcalm : p.initializing = none) : Mirrors (.empty :: S) (p.inside name) :=
  ⟨(h.inBlock hcalm).names, (h.inBlock hcalm).pending⟩

/-! ## What a walk finds -/

/-- From `f` to `f'` the walk came to the given landmarks. -/
structure Finds (f f' : Findings) (xs : List Sighting) : Prop where
  notices : f'.errors.toList.map StaticError.notice =
    f.errors.toList.map StaticError.notice ++ xs.filterMap Sighting.notice?
  distances : f'.distances = xs.foldl Sighting.record f.distances

theorem finds_nil (f : Findings) : Finds f f [] := ⟨(List.append_nil _).symm, rfl⟩

theorem Finds.append {f₁ : Findings} {xs ys : List Sighting} (h : Finds f f₁ xs)
    (h' : Finds f₁ f' ys) : Finds f f' (xs ++ ys) := by
  constructor
  · rw [h'.notices, h.notices, List.filterMap_append, List.append_assoc]
  · rw [h'.distances, h.distances, List.foldl_append]

/-- A report is made where the landmark is wrong, and only there. -/
theorem notices_reportIf {x : Sighting} {wrong : Bool} {problem : Problem}
    (hbreach : x.2.breach? x.1 = if wrong then some problem.message else none)
    (hrun : reportIf wrong (.atToken x.2.token problem) f = .ok () f') :
    f'.errors.toList.map StaticError.notice = f.errors.toList.map StaticError.notice ++
      [x].filterMap Sighting.notice? ∧ f'.distances = f.distances := by
  cases wrong with
  | false =>
    cases hrun
    have hnotice : x.notice? = none := by rw [Sighting.notice?, hbreach]; rfl
    exact ⟨by simp [hnotice], rfl⟩
  | true =>
    cases hrun
    have hnotice : x.notice? = some (StaticError.atToken x.2.token problem).notice := by
      rw [Sighting.notice?, hbreach]
      rfl
    exact ⟨by simp [hnotice], rfl⟩

theorem finds_declare {name : Token} (h : Mirrors S p) (hrun : declare S name f = .ok S' f') :
    Finds f f' [(p, .declares name)] ∧ S' = S.note name.lexeme false := by
  rw [declare_eq] at hrun
  obtain ⟨_, f₁, hreport, hpure⟩ := ok_bind.1 hrun
  cases hpure
  have hbreach : Landmark.breach? p (.declares name) =
      if S.declared name.lexeme then some Problem.alreadyDeclared.message else none := by
    simp only [h.declared]
    rfl
  obtain ⟨hnotices, hdistances⟩ := notices_reportIf (x := (p, .declares name)) hbreach hreport
  exact ⟨⟨hnotices, hdistances⟩, rfl⟩

theorem finds_declareReady {name : Token} (h : Mirrors S p) (hcalm : p.initializing = none)
    (hrun : declareReady S name f = .ok S' f') :
    Finds f f' [(p, .declares name)] ∧ Mirrors S' (p.declare name) := by
  obtain ⟨S₁, f₁, hdeclare, hpure⟩ := ok_bind.1 hrun
  cases hpure
  obtain ⟨hfinds, rfl⟩ := finds_declare h hdeclare
  rw [Scopes.note_note]
  exact ⟨hfinds, h.declare hcalm name⟩

theorem record_finds {u : Use UseId} (h : Mirrors S p)
    (hrun : record S u.name u.label f = .ok () f') :
    f'.errors = f.errors ∧ f'.distances = Sighting.record f.distances (p, .uses u) := by
  unfold record at hrun
  unfold Sighting.record
  rw [h.distance?] at hrun
  dsimp only
  cases hd : p.nearest? u.name.lexeme with
  | none =>
    rw [hd] at hrun
    cases hrun
    exact ⟨rfl, rfl⟩
  | some d =>
    rw [hd] at hrun
    cases hrun
    exact ⟨rfl, rfl⟩

theorem finds_variable {name : Token} {use : UseId} {d : Nat} (h : Mirrors S p)
    (hrun : expression S d (.variable name use) f = .ok () f') :
    Finds f f' [(p, .uses ⟨false, name, use⟩)] := by
  cases d with
  | zero => cases hrun
  | succ d =>
    rw [expression_variable] at hrun
    obtain ⟨_, f₁, hreport, hrecord⟩ := ok_bind.1 hrun
    have hbreach : Landmark.breach? p (.uses ⟨false, name, use⟩) =
        if S.unfinished name.lexeme then some Problem.ownInitializer.message else none := by
      simp only [h.pending, Landmark.breach?, true_and]
      rfl
    obtain ⟨hnotices, hdistances⟩ :=
      notices_reportIf (x := (p, .uses ⟨false, name, use⟩)) hbreach hreport
    obtain ⟨herrors, hrecorded⟩ := record_finds (u := ⟨false, name, use⟩) h hrecord
    refine ⟨?_, ?_⟩
    · rw [herrors, hnotices]
    · rw [hrecorded, hdistances]
      rfl

theorem finds_assigned {name : Token} {use : UseId} (h : Mirrors S p)
    (hrun : record S name use f = .ok () f') : Finds f f' [(p, .uses ⟨true, name, use⟩)] := by
  obtain ⟨herrors, hrecorded⟩ := record_finds (u := ⟨true, name, use⟩) h hrun
  refine ⟨?_, hrecorded⟩
  have hnotice : Sighting.notice? (p, .uses ⟨true, name, use⟩) = none := by
    simp [Sighting.notice?, Landmark.breach?]
  simp [herrors, hnotice]

theorem finds_expression {d : Nat} {e : Expr UseId} (h : Mirrors S p)
    (hrun : expression S d e f = .ok () f') : Finds f f' (e.landmarks p) := by
  induction d generalizing e f f' with
  | zero => cases hrun
  | succ d ih =>
    cases e with
    | literal v =>
      cases hrun
      exact finds_nil f
    | grouping e => exact ih (e := e) hrun
    | unary operator e => exact ih (e := e) hrun
    | binary e operator e' | logical e operator e' =>
      obtain ⟨_, f₁, hleft, hright⟩ := ok_bind.1 hrun
      rw [Expr.landmarks, Expr.visits, List.map_append]
      exact (ih hleft).append (ih hright)
    | «variable» name use => exact finds_variable h hrun
    | assign name e use =>
      obtain ⟨_, f₁, hvalue, hrecord⟩ := ok_bind.1 hrun
      rw [Expr.landmarks, Expr.visits, List.map_append]
      exact (ih hvalue).append (finds_assigned h hrecord)
    | call e paren es =>
      obtain ⟨_, f₁, hcallee, harguments⟩ := ok_bind.1 hrun
      rw [Expr.landmarks, Expr.visits, List.map_append]
      refine (ih hcallee).append ?_
      clear hcallee hrun
      induction es generalizing f₁ with
      | nil =>
        cases harguments
        exact finds_nil f'
      | cons e es ih' =>
        obtain ⟨_, f₂, hfirst, hrest⟩ := ok_bind.1 harguments
        rw [Expr.visitsInAll, List.map_append]
        exact (ih hfirst).append (ih' f₂ hrest)
    | alien text => cases hrun

theorem finds_option {d : Nat} {e : Option (Expr UseId)} (h : Mirrors S p)
    (hrun : e.forM (expression S d) f = .ok () f') : Finds f f' (Expr.landmarksInOption p e) := by
  cases e with
  | none =>
    cases hrun
    exact finds_nil f
  | some e => exact finds_expression h hrun

/-! ## Statements -/

/-- Statements over which the walk comes at depth `d`, seen by their landmarks. -/
def FindsAt (d : Nat) : Prop :=
  ∀ ⦃b : Bool⦄ ⦃S S' : Scopes⦄ ⦃p : Surroundings⦄ ⦃s : Stmt UseId⦄ ⦃f f' : Findings⦄,
    RegularStmt s.erase → Mirrors S p → p.initializing = none → p.inFunction = b →
    statement d b S s f = .ok S' f' → Finds f f' (s.landmarks p) ∧ Mirrors S' (p.behind s)

theorem behind_initializing (p : Surroundings) (s : Stmt UseId) :
    (p.behind s).initializing = p.initializing := by
  cases s <;> rfl

theorem behind_inFunction (p : Surroundings) (s : Stmt UseId) :
    (p.behind s).inFunction = p.inFunction := by
  cases s <;> rfl

theorem behind_of_not_declares {s : Stmt UseId} (h : s.erase.declares = false) :
    p.behind s = p := by
  cases s with
  | var | function => cases h
  | _ => rfl

theorem finds_statements {d : Nat} (ih : FindsAt d) {ss : List (Stmt UseId)} {b : Bool}
    (hregular : ∀ s ∈ ss, RegularStmt s.erase) (h : Mirrors S p) (hcalm : p.initializing = none)
    (hb : p.inFunction = b) (hrun : ss.foldlM (statement d b) S f = .ok S' f') :
    Finds f f' (Stmt.landmarksInAll p ss) := by
  induction ss generalizing S p f with
  | nil =>
    cases hrun
    exact finds_nil f'
  | cons s ss ih' =>
    rw [List.foldlM_cons] at hrun
    obtain ⟨S₁, f₁, hfirst, hrest⟩ := ok_bind.1 hrun
    obtain ⟨hfinds, hmirrors⟩ := ih (hregular s List.mem_cons_self) h hcalm hb hfirst
    refine hfinds.append (ih' (fun s' hs' => hregular s' (List.mem_cons_of_mem _ hs')) hmirrors
      ?_ ?_ hrest)
    · rw [behind_initializing, hcalm]
    · rw [behind_inFunction, hb]

theorem finds_parameters {names : List Token} (h : Mirrors S p) (hcalm : p.initializing = none)
    (hrun : names.foldlM declareReady S f = .ok S' f') :
    Finds f f' (parameterLandmarks p names) ∧ Mirrors S' (p.declareAll names) := by
  induction names generalizing S p f with
  | nil =>
    cases hrun
    exact ⟨finds_nil f', h⟩
  | cons name names ih =>
    rw [List.foldlM_cons] at hrun
    obtain ⟨S₁, f₁, hfirst, hrest⟩ := ok_bind.1 hrun
    obtain ⟨hfinds, hmirrors⟩ := finds_declareReady h hcalm hfirst
    obtain ⟨hmore, hmirrors'⟩ := ih hmirrors hcalm hrest
    exact ⟨hfinds.append hmore, hmirrors'⟩

theorem declareAll_initializing (p : Surroundings) (names : List Token) :
    (p.declareAll names).initializing = p.initializing := by
  induction names generalizing p with
  | nil => rfl
  | cons name names ih => exact ih (p.declare name)

theorem declareAll_inFunction (p : Surroundings) (names : List Token) :
    (p.declareAll names).inFunction = p.inFunction := by
  induction names generalizing p with
  | nil => rfl
  | cons name names ih => exact ih (p.declare name)

section Statements

variable {d : Nat} {b : Bool}

theorem finds_var {name : Token} {e : Option (Expr UseId)} (h : Mirrors S p)
    (hcalm : p.initializing = none)
    (hrun : statement (d + 1) b S (.var name e) f = .ok S' f') :
    Finds f f' ((Stmt.var name e).landmarks p) ∧ Mirrors S' (p.declare name) := by
  obtain ⟨S₁, f₁, hdeclare, hmore⟩ := ok_bind.1 hrun
  obtain ⟨_, f₂, hvalue, hpure⟩ := ok_bind.1 hmore
  cases hpure
  obtain ⟨hfinds, rfl⟩ := finds_declare h hdeclare
  rw [Scopes.note_note]
  exact ⟨hfinds.append (finds_option (h.initializer hcalm name) hvalue), h.declare hcalm name⟩

theorem finds_block (ih : ∀ d' < d + 1, FindsAt d') {ss : List (Stmt UseId)}
    (hregular : ∀ s ∈ Stmt.eraseAll ss, RegularStmt s) (h : Mirrors S p)
    (hcalm : p.initializing = none) (hb : p.inFunction = b)
    (hrun : statement (d + 1) b S (.block ss) f = .ok S' f') :
    Finds f f' ((Stmt.block ss).landmarks p) ∧ Mirrors S' p := by
  obtain ⟨_, f₁, hbody, hpure⟩ := ok_bind.1 hrun
  cases hpure
  cases d with
  | zero => cases hbody
  | succ d =>
    obtain ⟨S₁, f₂, hfold, hpure⟩ := ok_bind.1 hbody
    cases hpure
    exact ⟨finds_statements (ih d (by omega)) (regular_all hregular) (h.inBlock hcalm) hcalm hb
      hfold, h⟩

/-- Neither side of a branch declares anything, so the same lies around both. -/
theorem finds_branch (ih : FindsAt d) {e : Expr UseId} {s : Stmt UseId} {o : Option (Stmt UseId)}
    (hyes : RegularStmt s.erase) (hdeclares : s.erase.declares = false)
    (hno : ∀ s' ∈ Stmt.eraseOption o, RegularStmt s' ∧ s'.declares = false) (h : Mirrors S p)
    (hcalm : p.initializing = none) (hb : p.inFunction = b)
    (hrun : statement (d + 1) b S (.branch e s o) f = .ok S' f') :
    Finds f f' ((Stmt.branch e s o).landmarks p) ∧ Mirrors S' p := by
  obtain ⟨_, f₁, hcondition, hmore⟩ := ok_bind.1 hrun
  obtain ⟨S₁, f₂, hfirst, hlast⟩ := ok_bind.1 hmore
  obtain ⟨hfinds, hmirrors⟩ := ih hyes h hcalm hb hfirst
  rw [behind_of_not_declares hdeclares] at hmirrors
  have hboth := (finds_expression h hcondition).append hfinds
  cases o with
  | none =>
    cases hlast
    exact ⟨hboth.append (finds_nil f'), hmirrors⟩
  | some s' =>
    obtain ⟨hregular, hdeclares'⟩ := hno _ rfl
    obtain ⟨hfinds', hmirrors'⟩ := ih hregular hmirrors hcalm hb hlast
    rw [behind_of_not_declares hdeclares'] at hmirrors'
    exact ⟨hboth.append hfinds', hmirrors'⟩

theorem finds_function (ih : ∀ d' < d + 1, FindsAt d') {name : Token} {names : List Token}
    {ss : List (Stmt UseId)} (hregular : ∀ s ∈ Stmt.eraseAll ss, RegularStmt s) (h : Mirrors S p)
    (hcalm : p.initializing = none)
    (hrun : statement (d + 1) b S (.function name names ss) f = .ok S' f') :
    Finds f f' ((Stmt.function name names ss).landmarks p) ∧ Mirrors S' (p.declare name) := by
  obtain ⟨S₁, f₁, hdeclare, hmore⟩ := ok_bind.1 hrun
  obtain ⟨_, f₂, hfunction, hpure⟩ := ok_bind.1 hmore
  cases hpure
  obtain ⟨hfinds, hmirrors⟩ := finds_declareReady h hcalm hdeclare
  obtain _ | _ | d := d
  · cases hfunction
  · obtain ⟨_, _, _, hbody⟩ := ok_bind.1 hfunction
    cases hbody
  · obtain ⟨S₂, f₃, hparameters, hbody⟩ := ok_bind.1 hfunction
    obtain ⟨S₃, f₄, hfold, hpure⟩ := ok_bind.1 hbody
    cases hpure
    obtain ⟨hfinds₁, hmirrors₁⟩ := finds_parameters (hmirrors.inside hcalm) hcalm hparameters
    have hfinds₂ := finds_statements (ih d (by omega)) (regular_all hregular) hmirrors₁
      (by rw [declareAll_initializing]; exact hcalm) (declareAll_inFunction _ names) hfold
    exact ⟨(hfinds.append hfinds₁).append hfinds₂, hmirrors⟩

theorem finds_giveBack {keyword : Token} {e : Option (Expr UseId)} (h : Mirrors S p)
    (hb : p.inFunction = b)
    (hrun : statement (d + 1) b S (.giveBack keyword e) f = .ok S' f') :
    Finds f f' ((Stmt.giveBack keyword e).landmarks p) ∧ Mirrors S' p := by
  rw [statement_giveBack] at hrun
  obtain ⟨_, f₁, hreport, hmore⟩ := ok_bind.1 hrun
  obtain ⟨_, f₂, hvalue, hpure⟩ := ok_bind.1 hmore
  cases hpure
  have hbreach : Landmark.breach? p (.returns keyword) =
      if !b then some Problem.topLevelReturn.message else none := by
    rw [Landmark.breach?, hb]
    cases b <;> rfl
  obtain ⟨hnotices, hdistances⟩ := notices_reportIf (x := (p, .returns keyword)) hbreach hreport
  have hkeyword : Finds f f₁ [(p, .returns keyword)] := ⟨hnotices, hdistances⟩
  exact ⟨hkeyword.append (finds_option h hvalue), h⟩

end Statements

theorem finds_statement (d : Nat) : FindsAt d := by
  induction d using Nat.strongRecOn with
  | _ d ih =>
    intro b S S' p s f f' hregular h hcalm hb hrun
    cases d with
    | zero => cases hrun
    | succ d =>
      cases s with
      | expression e | print e =>
        obtain ⟨_, f₁, hvalue, hpure⟩ := ok_bind.1 hrun
        cases hpure
        exact ⟨finds_expression h hvalue, h⟩
      | var name e => exact finds_var h hcalm hrun
      | block ss =>
        cases hregular with
        | block hss => exact finds_block ih hss h hcalm hb hrun
      | branch e s o =>
        cases hregular with
        | branch _ hs hdeclares ho hdeclares' =>
          exact finds_branch (ih d (by omega)) hs hdeclares
            (fun s' hs' => ⟨ho s' hs', hdeclares' s' hs'⟩) h hcalm hb hrun
      | loop e s =>
        cases hregular with
        | loop _ hs hdeclares =>
          obtain ⟨_, f₁, hcondition, hbody⟩ := ok_bind.1 hrun
          obtain ⟨hfinds, hmirrors⟩ := ih d (by omega) hs h hcalm hb hbody
          rw [behind_of_not_declares hdeclares] at hmirrors
          exact ⟨(finds_expression h hcondition).append hfinds, hmirrors⟩
      | function name names ss =>
        cases hregular with
        | function hss => exact finds_function ih hss h hcalm hrun
      | giveBack keyword e => exact finds_giveBack h hb hrun
      | alien text => cases hrun

/-! ## Whole programs -/

/-- Where nothing goes too deep, the statements of a program are walked over in turn. -/
theorem foldlM_topLevel {d : Nat} {ss : List (Stmt UseId)}
    (hrun : ss.foldlM (topLevel d) S f = .ok S' f')
    (hdeep : ∀ e ∈ f'.errors, e.problem ≠ .tooDeep) :
    ss.foldlM (statement d false) S f = .ok S' f' := by
  induction ss generalizing S f with
  | nil => exact hrun
  | cons s ss ih =>
    rw [List.foldlM_cons] at hrun ⊢
    obtain ⟨S₁, f₁, hfirst, hrest⟩ := ok_bind.1 hrun
    have hgrown := ((touches_foldlM labelsIn (touches_topLevel d) S₁).ok hrest).grown
    exact ok_bind.2
      ⟨S₁, f₁, topLevel_ok hfirst fun e he => hdeep e (hgrown e he), ih hrest⟩

end Resolve

/-- A program that was read and labelled is regular, and its uses have labels of their own. -/
theorem labelled_regular {limit n next : Nat} {tokens : List Token} {program : List (Stmt UseId)}
    (hquiet : (parse limit tokens).complaints = [])
    (hlabel : (Stmt.labelAll (parse limit tokens).statements).run n = (program, next)) :
    (∀ s ∈ program, RegularStmt s.erase) ∧
      Numbers n next ((Stmt.usesInAll program).map Use.label) := by
  obtain ⟨ss, next', hrun, herase, hnumbers⟩ :=
    Stmt.labelAll_labels (parse limit tokens).statements n
  rw [hlabel] at hrun
  cases hrun
  refine ⟨Resolve.regular_all ?_, hnumbers⟩
  rw [herase]
  exact Parser.parse_regular hquiet

/-- The walk over a regular program comes to all of its landmarks in turn. -/
theorem resolve_finds {depth : Nat} {distances : Distances} {program : List (Stmt UseId)}
    (hregular : ∀ s ∈ program, RegularStmt s.erase)
    (hdeep : ∀ e ∈ (resolve depth distances program).1.errors, e.problem ≠ .tooDeep) :
    (resolve depth distances program).2 = none ∧
      Resolve.Finds ⟨distances, #[]⟩ (resolve depth distances program).1
        (Stmt.landmarksInAll .outside program) := by
  obtain ⟨found, hends⟩ := Resolve.program_ends depth hregular ⟨distances, #[]⟩
  have hresolve : resolve depth distances program = (found, none) := by rw [resolve, hends]
  rw [hresolve] at hdeep ⊢
  obtain ⟨S, f, hfold, hpure⟩ := ok_bind.1 hends
  cases hpure
  refine ⟨rfl, ?_⟩
  exact Resolve.finds_statements (Resolve.finds_statement depth) hregular Resolve.mirrors_outside
    rfl rfl (Resolve.foldlM_topLevel hfold hdeep)

/-! ## Distances -/

/-- Each use in a program that was read is given the distance of the nearest scope that declares
its name before it, and none if there is no such scope. The distances of other programs are kept. -/
theorem distances_are_nearest {limit depth n next : Nat} {tokens : List Token}
    {distances : Distances} {program : List (Stmt UseId)}
    (hquiet : (parse limit tokens).complaints = [])
    (hlabel : (Stmt.labelAll (parse limit tokens).statements).run n = (program, next))
    (hfresh : ∀ l, n ≤ l → l < next → distances[l]? = none)
    (hdeep : ∀ e ∈ (resolve depth distances program).1.errors, e.problem ≠ .tooDeep) :
    let found := (resolve depth distances program).1
    let landmarks := Stmt.landmarksInAll .outside program
    (∀ u ∈ Stmt.usesInAll program, ∃ p, (p, .uses u) ∈ landmarks) ∧
      (∀ p u, (p, .uses u) ∈ landmarks →
        ∀ d, found.distances[u.label]? = some d ↔ p.Nearest u.name.lexeme d) ∧
      ∀ l, l ∉ (Stmt.usesInAll program).map Use.label → found.distances[l]? = distances[l]? := by
  intro found landmarks
  obtain ⟨hregular, hnumbers⟩ := labelled_regular hquiet hlabel
  obtain ⟨-, hfinds⟩ := resolve_finds hregular hdeep
  have hperm : (usesAt landmarks).Perm (Stmt.usesInAll program) :=
    Stmt.usesAt_landmarksInAll .outside program
  refine ⟨fun u hu => ?_, fun p u hmem d => ?_, fun l hl => resolve_kept depth distances program hl⟩
  · obtain ⟨⟨p, x⟩, hmem, huse⟩ := List.mem_filterMap.1 (hperm.mem_iff.2 hu)
    cases x with
    | declares | returns => cases huse
    | uses v =>
      cases huse
      exact ⟨p, hmem⟩
  · have hnodup : ((usesAt landmarks).map Use.label).Nodup :=
      (hperm.map Use.label).nodup_iff.2 hnumbers.nodup
    have huse : u ∈ Stmt.usesInAll program :=
      hperm.mem_iff.1 (List.mem_filterMap.2 ⟨(p, .uses u), hmem, rfl⟩)
    obtain ⟨hle, hlt⟩ := hnumbers.mem (List.mem_map_of_mem huse)
    have hrecorded : found.distances[u.label]? = p.nearest? u.name.lexeme := by
      rw [hfinds.distances, Sighting.foldl_record hnodup hmem, hfresh _ hle hlt, Option.or_none]
    rw [hrecorded, Surroundings.nearest?_eq_some_iff]

/-- A parameter twice, a variable in its own initializer, a return outside, and globals. -/
def roughSource : String :=
  "function f(a, a) \x7b var b = b; \x7b b = a; print c; \x7d return b; \x7d return f; var g = g;"

theorem roughSource_quiet : (parse nestingLimit (lex roughSource).tokens).complaints = [] := by
  decide +kernel

theorem roughSource_distances :
    let statements := (parse nestingLimit (lex roughSource).tokens).statements
    let program := ((Stmt.labelAll statements).run 0).1
    let found := (resolve walkLimit ∅ program).1
    (parse nestingLimit (lex roughSource).tokens).complaints = [] ∧
      (∀ e ∈ found.errors, e.problem ≠ .tooDeep) ∧
      (Stmt.usesInAll program).map (fun u => (u.name.lexeme, found.distances[u.label]?)) =
        [("b", some 0), ("b", some 1), ("a", some 1), ("c", none), ("b", some 0), ("f", none),
          ("g", none)] ∧
      ∀ p u, (p, .uses u) ∈ Stmt.landmarksInAll .outside program →
        ∀ d, found.distances[u.label]? = some d ↔ p.Nearest u.name.lexeme d := by
  intro statements program found
  have hquiet := roughSource_quiet
  have hdeep : ∀ e ∈ found.errors, e.problem ≠ .tooDeep := by decide +kernel
  have hlabel : (Stmt.labelAll statements).run 0 = (program, _) := rfl
  have hfresh : ∀ l : UseId, (∅ : Distances)[l]? = none := fun _ => Std.TreeMap.getElem?_emptyc
  obtain ⟨-, hnearest, -⟩ := distances_are_nearest hquiet hlabel (fun l _ _ => hfresh l) hdeep
  exact ⟨hquiet, hdeep, by decide +kernel, hnearest⟩

/-! ## Errors -/

/-- What is reported of a program that was read are the breaches at its landmarks, each in its
turn. So the program is accepted exactly if it returns inside functions only, declares no name twice
in a scope, and reads no local variable in its own initializer. -/
theorem errors_are_breaches {limit depth n next : Nat} {tokens : List Token}
    {distances : Distances} {program : List (Stmt UseId)}
    (hquiet : (parse limit tokens).complaints = [])
    (hlabel : (Stmt.labelAll (parse limit tokens).statements).run n = (program, next))
    (hdeep : ∀ e ∈ (resolve depth distances program).1.errors, e.problem ≠ .tooDeep) :
    let errors := (resolve depth distances program).1.errors
    let landmarks := Stmt.landmarksInAll .outside program
    (resolve depth distances program).2 = none ∧
      errors.toList.map StaticError.notice = landmarks.filterMap Sighting.notice? ∧
      (errors = #[] ↔
        (∀ p keyword, (p, .returns keyword) ∈ landmarks → p.inFunction = true) ∧
        (∀ p name, (p, .declares name) ∈ landmarks → name.lexeme ∉ p.scopes.headD []) ∧
        ∀ p u, (p, .uses u) ∈ landmarks → u.assigns = false →
          p.initializing = some u.name.lexeme → p.scopes = []) ∧
      ∀ p name, (p, .declares name) ∈ landmarks → p.scopes = [] →
        Sighting.notice? (p, .declares name) = none := by
  intro errors landmarks
  obtain ⟨hregular, -⟩ := labelled_regular hquiet hlabel
  obtain ⟨hend, hfinds⟩ := resolve_finds hregular hdeep
  have hnotices : errors.toList.map StaticError.notice = landmarks.filterMap Sighting.notice? :=
    hfinds.notices
  refine ⟨hend, hnotices, ?_, fun p name _ hscopes => ?_⟩
  · have hempty : errors = #[] ↔ ∀ x ∈ landmarks, x.notice? = none := by
      rw [← List.filterMap_eq_nil_iff, ← hnotices, List.map_eq_nil_iff, Array.toList_eq_nil_iff]
    rw [hempty]
    constructor
    · intro h
      exact ⟨fun p keyword hmem => Sighting.notice?_returns_eq_none_iff.1 (h _ hmem),
        fun p name hmem => Sighting.notice?_declares_eq_none_iff.1 (h _ hmem),
        fun p u hmem => Sighting.notice?_uses_eq_none_iff.1 (h _ hmem)⟩
    · rintro ⟨hreturns, hdeclares, huses⟩ ⟨p, x⟩ hmem
      cases x with
      | returns keyword => exact Sighting.notice?_returns_eq_none_iff.2 (hreturns p keyword hmem)
      | declares name => exact Sighting.notice?_declares_eq_none_iff.2 (hdeclares p name hmem)
      | uses u => exact Sighting.notice?_uses_eq_none_iff.2 (huses p u hmem)
  · rw [Sighting.notice?_declares_eq_none_iff, hscopes]
    exact List.not_mem_nil

theorem roughSource_errors :
    let statements := (parse nestingLimit (lex roughSource).tokens).statements
    let program := ((Stmt.labelAll statements).run 0).1
    let errors := (resolve walkLimit ∅ program).1.errors
    (parse nestingLimit (lex roughSource).tokens).complaints = [] ∧
      (∀ e ∈ errors, e.problem ≠ .tooDeep) ∧
      errors.toList.map (·.text) =
        ["[line 1] Error at 'a': Already a variable with this name in this scope.",
          "[line 1] Error at 'b': Can't read local variable in its own initializer.",
          "[line 1] Error at 'return': Can't return from top-level code."] ∧
      errors.toList.map StaticError.notice =
        (Stmt.landmarksInAll .outside program).filterMap Sighting.notice? := by
  intro statements program errors
  have hquiet := roughSource_quiet
  have hdeep : ∀ e ∈ errors, e.problem ≠ .tooDeep := by decide +kernel
  have hlabel : (Stmt.labelAll statements).run 0 = (program, _) := rfl
  obtain ⟨-, hnotices, -⟩ := errors_are_breaches hquiet hlabel hdeep
  exact ⟨hquiet, hdeep, by decide +kernel, hnotices⟩

end Scriptling
