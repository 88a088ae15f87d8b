-- The landmarks of a program: where a name is declared or used, and where a function is left. Each
-- comes with what lies around it, read off the tree alone: whether a function does, the names that
-- the blocks and functions declare before it, and the initializer in which it stands.
import Scriptling.Scope.Resolution

namespace Scriptling

/-! ## Around a place -/

/-- What lies around a place in a program. -/
structure Surroundings where
  inFunction : Bool
  /-- The names declared before the place in each block and each function around it, those of the
  innermost first. -/
  scopes : List (List String)
  /-- The variable in whose initializer the place stands. -/
  initializing : Option String

namespace Surroundings

/-- Around a whole program there is nothing. -/
def outside : Surroundings := ⟨false, [], none⟩

/-- Behind the declaration of a name. A global name belongs to no scope. -/
def declare (p : Surroundings) (name : Token) : Surroundings :=
  { p with scopes := p.scopes.modifyHead (name.lexeme :: ·) }

/-- Behind the declarations of some names. -/
def declareAll (p : Surroundings) (names : List Token) : Surroundings := names.foldl declare p

/-- Inside the initializer of a variable, which is declared there. -/
def initializer (p : Surroundings) (name : Token) : Surroundings :=
  { p.declare name with initializing := some name.lexeme }

def inBlock (p : Surroundings) : Surroundings := { p with scopes := [] :: p.scopes }

/-- Inside a function, which is declared there, before its parameters. -/
def inside (p : Surroundings) (name : Token) : Surroundings :=
  { (p.declare name).inBlock with inFunction := true }

/-- Behind a statement. -/
def behind {ι : Type} (p : Surroundings) : Stmt ι → Surroundings
  | .var name _ | .function name _ _ => p.declare name
  | _ => p

/-- The innermost scope that declares the name before the place lies `d` scopes away. -/
def Nearest (p : Surroundings) (name : String) (d : Nat) : Prop :=
  (∃ names, p.scopes[d]? = some names ∧ name ∈ names) ∧
    ∀ i names, i < d → p.scopes[i]? = some names → name ∉ names

/-- How far away the innermost scope lies that declares the name before the place. -/
def nearest? (p : Surroundings) (name : String) : Option Nat :=
  p.scopes.findIdx? fun names => decide (name ∈ names)

theorem nearest?_eq_some_iff {p : Surroundings} {name : String} {d : Nat} :
    p.nearest? name = some d ↔ p.Nearest name d := by
  unfold nearest? Nearest
  rw [List.findIdx?_eq_some_iff_getElem]
  constructor
  · rintro ⟨hd, hmem, hbefore⟩
    refine ⟨⟨_, List.getElem?_eq_getElem hd, of_decide_eq_true hmem⟩, ?_⟩
    intro i names hi hnames
    obtain ⟨hlt, rfl⟩ := List.getElem?_eq_some_iff.1 hnames
    simpa using hbefore i hi
  · rintro ⟨⟨names, hnames, hmem⟩, hbefore⟩
    obtain ⟨hd, rfl⟩ := List.getElem?_eq_some_iff.1 hnames
    refine ⟨hd, decide_eq_true hmem, ?_⟩
    intro i hi
    simpa using hbefore i _ hi (List.getElem?_eq_getElem (Nat.lt_trans hi hd))

end Surroundings

/-! ## Landmarks -/

/-- A place that the rules of scope speak of. -/
inductive Landmark
  | declares (name : Token)
  | returns (keyword : Token)
  | uses (u : Use UseId)

namespace Landmark

def token : Landmark → Token
  | declares t | returns t => t
  | uses u => u.name

def use? : Landmark → Option (Use UseId)
  | declares _ | returns _ => none
  | uses u => some u

/-- What is wrong with a landmark, if something is. -/
def breach? (p : Surroundings) : Landmark → Option String
  | returns _ => if p.inFunction then none else some "Can't return from top-level code."
  | declares name =>
    if name.lexeme ∈ p.scopes.headD [] then some "Already a variable with this name in this scope."
    else none
  | uses u =>
    if u.assigns = false ∧ p.scopes ≠ [] ∧ p.initializing = some u.name.lexeme then
      some "Can't read local variable in its own initializer."
    else none

end Landmark

/-- A landmark with what lies around it. -/
abbrev Sighting := Surroundings × Landmark

/-- What is wrong with a landmark, as it is reported. -/
def Sighting.notice? (x : Sighting) : Option Notice :=
  (x.2.breach? x.1).map (.static x.2.token.line (.ofToken x.2.token))

namespace Sighting

variable {p : Surroundings}

theorem notice?_returns_eq_none_iff {keyword : Token} :
    notice? (p, .returns keyword) = none ↔ p.inFunction = true := by
  unfold notice? Landmark.breach?
  rw [Option.map_eq_none_iff]
  cases p.inFunction <;> simp

theorem notice?_declares_eq_none_iff {name : Token} :
    notice? (p, .declares name) = none ↔ name.lexeme ∉ p.scopes.headD [] := by
  unfold notice? Landmark.breach?
  rw [Option.map_eq_none_iff]
  by_cases h : name.lexeme ∈ p.scopes.headD []
  · simp only [h, if_true, reduceCtorEq, not_true]
  · simp only [h, if_false, not_false_eq_true]

theorem notice?_uses_eq_none_iff {u : Use UseId} :
    notice? (p, .uses u) = none ↔
      (u.assigns = false → p.initializing = some u.name.lexeme → p.scopes = []) := by
  unfold notice? Landmark.breach?
  rw [Option.map_eq_none_iff, ite_eq_right_iff]
  by_cases h : p.scopes = []
  · simp [h]
  · simp [h]

end Sighting

mutual
/-- The uses in an expression as they are come to, an assignment after those in its value. -/
def Expr.visits {ι : Type} : Expr ι → List (Use ι)
  | .literal _ => []
  | .grouping inner => inner.visits
  | .unary _ right => right.visits
  | .binary left _ right => left.visits ++ right.visits
  | .logical left _ right => left.visits ++ right.visits
  | .variable name label => [⟨false, name, label⟩]
  | .assign name value label => value.visits ++ [⟨true, name, label⟩]
  | .call callee _ arguments => callee.visits ++ Expr.visitsInAll arguments
  | .alien _ => []

def Expr.visitsInAll {ι : Type} : List (Expr ι) → List (Use ι)
  | [] => []
  | e :: rest => e.visits ++ Expr.visitsInAll rest
end

def Expr.landmarks (p : Surroundings) (e : Expr UseId) : List Sighting :=
  e.visits.map fun u => (p, .uses u)

def Expr.landmarksInOption (p : Surroundings) (e : Option (Expr UseId)) : List Sighting :=
  e.elim [] (Expr.landmarks p)

/-- The parameters of a function, which share its scope. -/
def parameterLandmarks (p : Surroundings) : List Token → List Sighting
  | [] => []
  | name :: rest => (p, .declares name) :: parameterLandmarks (p.declare name) rest

mutual
/-- The landmarks in a statement, as they are come to. -/
def Stmt.landmarks (p : Surroundings) : Stmt UseId → List Sighting
  | .expression e => e.landmarks p
  | .print e => e.landmarks p
  | .var name initializer =>
    (p, .declares name) :: Expr.landmarksInOption (p.initializer name) initializer
  | .block body => Stmt.landmarksInAll p.inBlock body
  | .branch condition yes no =>
    condition.landmarks p ++ yes.landmarks p ++ Stmt.landmarksInOption p no
  | .loop condition body => condition.landmarks p ++ body.landmarks p
  | .function name parameters body =>
    (p, .declares name) :: parameterLandmarks (p.inside name) parameters
      ++ Stmt.landmarksInAll ((p.inside name).declareAll parameters) body
  | .giveBack keyword value => (p, .returns keyword) :: Expr.landmarksInOption p value
  | .alien _ => []

def Stmt.landmarksInOption (p : Surroundings) : Option (Stmt UseId) → List Sighting
  | none => []
  | some s => s.landmarks p

def Stmt.landmarksInAll (p : Surroundings) : List (Stmt UseId) → List Sighting
  | [] => []
  | s :: rest => s.landmarks p ++ Stmt.landmarksInAll (p.behind s) rest
end

/-! ## Every use is a landmark -/

def usesAt (xs : List Sighting) : List (Use UseId) := xs.filterMap fun x => x.2.use?

theorem usesAt_append (xs ys : List Sighting) : usesAt (xs ++ ys) = usesAt xs ++ usesAt ys :=
  List.filterMap_append

mutual
theorem Expr.visits_perm {ι : Type} : ∀ e : Expr ι, e.visits.Perm e.uses
  | .literal _ | .variable .. | .alien _ => .refl _
  | .grouping inner => inner.visits_perm
  | .unary _ right => right.visits_perm
  | .binary left _ right | .logical left _ right => left.visits_perm.append right.visits_perm
  | .assign _ value _ => (List.perm_append_singleton _ _).trans (value.visits_perm.cons _)
  | .call callee _ arguments => callee.visits_perm.append (Expr.visitsInAll_perm arguments)

theorem Expr.visitsInAll_perm {ι : Type} : ∀ es : List (Expr ι),
    (Expr.visitsInAll es).Perm (Expr.usesInAll es)
  | [] => .refl _
  | e :: rest => e.visits_perm.append (Expr.visitsInAll_perm rest)
end

theorem Expr.usesAt_landmarks (p : Surroundings) (e : Expr UseId) :
    (usesAt (e.landmarks p)).Perm e.uses := by
  have hvisits : usesAt (e.landmarks p) = e.visits := by
    rw [usesAt, Expr.landmarks, List.filterMap_map]
    exact List.filterMap_some
  rw [hvisits]
  exact e.visits_perm

theorem Expr.usesAt_landmarksInOption (p : Surroundings) (e : Option (Expr UseId)) :
    (usesAt (Expr.landmarksInOption p e)).Perm (Expr.usesInOption e) := by
  cases e with
  | none => exact .refl _
  | some e => exact e.usesAt_landmarks p

theorem usesAt_parameterLandmarks (p : Surroundings) (names : List Token) :
    usesAt (parameterLandmarks p names) = [] := by
  induction names generalizing p with
  | nil => rfl
  | cons name rest ih => exact ih (p.declare name)

mutual
theorem Stmt.usesAt_landmarks : ∀ (p : Surroundings) (s : Stmt UseId),
    (usesAt (s.landmarks p)).Perm s.uses
  | p, .expression e | p, .print e => e.usesAt_landmarks p
  | p, .var name initializer => Expr.usesAt_landmarksInOption (p.initializer name) initializer
  | p, .block body => Stmt.usesAt_landmarksInAll p.inBlock body
  | p, .branch condition yes no => by
    rw [Stmt.landmarks, usesAt_append, usesAt_append]
    exact ((condition.usesAt_landmarks p).append (yes.usesAt_landmarks p)).append
      (Stmt.usesAt_landmarksInOption p no)
  | p, .loop condition body => by
    rw [Stmt.landmarks, usesAt_append]
    exact (condition.usesAt_landmarks p).append (body.usesAt_landmarks p)
  | p, .function name parameters body => by
    have hparameters :
        usesAt ((p, .declares name) :: parameterLandmarks (p.inside name) parameters) = [] :=
      usesAt_parameterLandmarks (p.inside name) parameters
    rw [Stmt.landmarks, usesAt_append, hparameters]
    exact Stmt.usesAt_landmarksInAll ((p.inside name).declareAll parameters) body
  | p, .giveBack _ value => Expr.usesAt_landmarksInOption p value
  | _, .alien _ => .refl _

theorem Stmt.usesAt_landmarksInOption : ∀ (p : Surroundings) (s : Option (Stmt UseId)),
    (usesAt (Stmt.landmarksInOption p s)).Perm (Stmt.usesInOption s)
  | _, none => .refl _
  | p, some s => s.usesAt_landmarks p

/-- Each use in a program is one of its landmarks. -/
theorem Stmt.usesAt_landmarksInAll : ∀ (p : Surroundings) (ss : List (Stmt UseId)),
    (usesAt (Stmt.landmarksInAll p ss)).Perm (Stmt.usesInAll ss)
  | _, [] => .refl _
  | p, s :: rest => by
    rw [Stmt.landmarksInAll, usesAt_append]
    exact (s.usesAt_landmarks p).append (Stmt.usesAt_landmarksInAll (p.behind s) rest)
end

end Scriptling
