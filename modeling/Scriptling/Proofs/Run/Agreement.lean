-- Agreement: how a watched session and a session by names lie side by side. Each local variable
-- of a frame is linked to the cell of its declaration. What a chain is to the one, a map of names
-- is to the other, and the scopes of the walk over the program say how the two belong together.
import Scriptling.Proofs.Frame.Changes
import Scriptling.Proofs.Run.Lexical
import Scriptling.Proofs.Run.Natives
import Scriptling.Proofs.Run.Watched
import Scriptling.Proofs.Scope.Scoped

namespace Scriptling

open Lexical (CellId Names Site)

/-! ## Chains and names -/

/-- The cell of each local variable, by its frame and its name. -/
abbrev Links := FrameId → String → Option CellId

/-- A chain and a map of names belong to the same scopes. Each frame holds the names of one scope,
and `near` are those of them that the map adds to the map outside. A name that is ready is bound. -/
inductive Covers (h : Heap) (link : Links) : Scopes → Chain → Names → Prop
  | global : Covers h link [] globalChain []
  | scope {scope : Scope} {S : Scopes} {i : FrameId} {chain : Chain} {near names : Names}
      (outer : Covers h link S chain names) (inside : 0 < i) (known : i < h.next)
      (declared : ∀ x, scope.binds x = true → ∃ c, link i x = some c ∧ near.lookup x = some c)
      (other : ∀ x, scope.binds x = false → near.lookup x = none)
      (ready : ∀ x, scope.get? x = some true → (h.frame i).binds x = true) :
      Covers h link (scope :: S) (i :: chain) (near ++ names)

section Covers

variable {h h' : Heap} {link link' : Links} {S : Scopes} {chain : Chain} {names : Names}

theorem Covers.length (hcovers : Covers h link S chain names) : chain.length = S.length + 1 := by
  induction hcovers with
  | global => rfl
  | scope _ _ _ _ _ _ ih => rw [List.length_cons, List.length_cons, ih]

theorem Covers.last (hcovers : Covers h link S chain names) : chain.getLast? = some 0 := by
  induction hcovers with
  | global => rfl
  | scope outer _ _ _ _ _ ih =>
    cases outer with
    | global => rfl
    | scope => exact ih

theorem Covers.mono (hcovers : Covers h link S chain names) (hnext : h.next ≤ h'.next)
    (hlinks : ∀ i x c, link i x = some c → link' i x = some c)
    (hbinds : ∀ i x, (h.frame i).binds x = true → (h'.frame i).binds x = true) :
    Covers h' link' S chain names := by
  induction hcovers with
  | global => exact .global
  | scope _ inside known declared other ready ih =>
    refine .scope ih inside (Nat.lt_of_lt_of_le known hnext) (fun x hx => ?_) other
      fun x hx => hbinds _ _ (ready x hx)
    obtain ⟨c, hc, hlookup⟩ := declared x hx
    exact ⟨c, hlinks _ _ _ hc, hlookup⟩

theorem distance?_cons (scope : Scope) (S : Scopes) (x : String) :
    Scopes.distance? (scope :: S) x =
      if scope.binds x then some 0 else (S.distance? x).map (· + 1) := by
  unfold Scopes.distance?
  rw [List.findIdx?_cons]

theorem lookup_append_of_some {near : Names} {x : String} {c : CellId}
    (hnear : near.lookup x = some c) (names : Names) : (near ++ names).lookup x = some c := by
  rw [List.lookup_append, hnear]
  rfl

theorem lookup_append_of_none {near : Names} {x : String} (hnear : near.lookup x = none)
    (names : Names) : (near ++ names).lookup x = names.lookup x := by
  rw [List.lookup_append, hnear]
  rfl

/-- A local name is in the map, and linked in the frame at its distance. -/
theorem Covers.local (hcovers : Covers h link S chain names) {x : String} {d : Nat}
    (hd : S.distance? x = some d) : ∃ scope i c, S[d]? = some scope ∧ chain[d]? = some i ∧
      0 < i ∧ i < h.next ∧ scope.binds x = true ∧ link i x = some c ∧ names.lookup x = some c ∧
      (scope.get? x = some true → (h.frame i).binds x = true) := by
  induction hcovers generalizing d with
  | global => cases hd
  | @scope scope S i chain near names _ inside known declared other ready ih =>
    rw [distance?_cons] at hd
    cases hbinds : scope.binds x with
    | true =>
      rw [hbinds] at hd
      cases hd
      obtain ⟨c, hc, hlookup⟩ := declared x hbinds
      exact ⟨scope, i, c, rfl, rfl, inside, known, hbinds, hc, lookup_append_of_some hlookup names,
        ready x⟩
    | false =>
      rw [hbinds] at hd
      obtain ⟨d', hd', rfl⟩ := Option.map_eq_some_iff.1 hd
      obtain ⟨scope', i', c, hscope, hi, hinside, hknown, hbinds', hc, hlookup, hready⟩ := ih hd'
      refine ⟨scope', i', c, hscope, hi, hinside, hknown, hbinds', hc, ?_, hready⟩
      rw [lookup_append_of_none (other x hbinds)]
      exact hlookup

/-- A name that no scope declares is not in the map. -/
theorem Covers.nonlocal (hcovers : Covers h link S chain names) {x : String}
    (hd : S.distance? x = none) : names.lookup x = none := by
  induction hcovers with
  | global => rfl
  | @scope scope S i chain near names _ _ _ _ other _ ih =>
    rw [distance?_cons] at hd
    cases hbinds : scope.binds x with
    | true =>
      rw [hbinds] at hd
      cases hd
    | false =>
      rw [hbinds] at hd
      rw [lookup_append_of_none (other x hbinds)]
      exact ih (Option.map_eq_none_iff.1 hd)

end Covers

/-- All names of the scopes are ready. -/
def Settled (S : Scopes) : Prop := ∀ scope ∈ S, ∀ x b, scope.get? x = some b → b = true

/-- In the innermost frame only the names of the innermost scope are linked. -/
def Fresh (link : Links) : Scopes → Chain → Prop
  | scope :: _, i :: _ => ∀ x c, link i x = some c → scope.binds x = true
  | _, _ => True

/-! ## Two sessions side by side -/

/-- A watched session and a session by names, with the links between them. -/
structure Pair where
  watched : Watched
  lexical : Lexical.State
  link : Links

/-- The part of two sessions that only grows. -/
structure Core where
  heap : Heap
  link : Links
  code : Array Code
  lexical : Array Lexical.Code
  origins : Nat → Spot
  programs : Array Accepted

def Pair.core (p : Pair) : Core where
  heap := p.watched.world.heap
  link := p.link
  code := p.watched.world.code
  lexical := p.lexical.code
  origins := p.watched.origins
  programs := p.watched.programs

/-- A value that a program can have: a callable is there, and takes as many arguments as it says. -/
inductive Genuine (natives : List Native) (code : Array Code) : Value → Prop
  | plain {v : Value} (h : v.callable? = none) : Genuine natives code v
  | function {c : Callable} {ps : List Token} {body : List (Stmt UseId)} {chain : Chain}
      (h : code[c.id]? = some (.closure ps body chain)) (arity : ps.length = c.arity) :
      Genuine natives code (.function c)
  | native {c : Callable} {n : Native} (h : natives[c.id]? = some n) (arity : n.arity = c.arity) :
      Genuine natives code (.native c)

/-- What a callable does, on both sides. A function was declared in an accepted program, at a place
that its chain and its names belong to. -/
inductive Corresponds (natives : List Native) (c : Core) (id : Nat) : Prop
  | nothing (h : c.code[id]? = none) (h' : c.lexical[id]? = none)
  | function {ps : List Token} {body : List (Stmt UseId)} {chain : Chain} {names : Names}
      {P : Accepted} {S : Scopes} (h : c.code[id]? = some (.closure ps body chain))
      (h' : c.lexical[id]? = some (.closure ps (Stmt.eraseAll body) names))
      (program : c.programs[(c.origins id).program]? = some P)
      (statements : ScopedBody P true (Scopes.parameterScope ps :: S) (c.origins id).path 0 body)
      (distinct : (ps.map Token.lexeme).Nodup) (covers : Covers c.heap c.link S chain names)
      (settled : Settled S)
  | native {n : Native} (h : natives[id]? = some n)

/-- The error does not come from an operator that values do not know. -/
def RuntimeError.Known (e : RuntimeError) : Prop :=
  (∀ lexeme, e.failure ≠ .unknownUnary lexeme) ∧ ∀ lexeme, e.failure ≠ .unknownBinary lexeme

/-- What anyone can see of two sessions is the same. -/
structure SameSurface (w : World) (s : Lexical.State) : Prop where
  globals : w.heap.frame 0 = s.globals
  printed : w.printed = s.printed
  reports : w.reports = s.reports
  hadError : w.hadError = s.hadError
  clock : w.clock = s.clock
  known : ∀ e, Report.runtime e ∈ w.reports → e.Known

/-- Each local variable that is bound has a cell of its own, with the same value. -/
structure Linked (h : Heap) (link : Links) (cells : Array Value) : Prop where
  nonempty : 0 < h.next
  range : ∀ i x c, link i x = some c → 0 < i ∧ i < h.next ∧ c < cells.size
  apart : ∀ i j x y c, link i x = some c → link j y = some c → i = j ∧ x = y
  bound : ∀ i x v, 0 < i → (h.frame i).get? x = some v →
    ∃ c, link i x = some c ∧ cells[c]? = some v

/-- The callables of two sessions correspond, all but the one that is being made. -/
structure SameCode (natives : List Native) (pending : Option Nat) (c : Core) : Prop where
  size : c.code.size = c.lexical.size
  corresponds : ∀ id, some id ≠ pending → Corresponds natives c id
  native : ∀ (i : Nat) (n : Native), natives[i]? = some n →
    c.code[i]? = some (.host n.act) ∧ c.lexical[i]? = some (.host n.act)

/-- The distances in use are those that were found for each accepted program. -/
structure Tabled (programs : Array Accepted) (nextUse : UseId) (distances : Distances) : Prop where
  accepted : ∀ (n : Nat) (P : Accepted), programs[n]? = some P → P.nextUse ≤ nextUse ∧
    ∀ l, l < P.nextUse → distances[l]? = P.found.distances[l]?
  fresh : ∀ l, nextUse ≤ l → distances[l]? = none

/-- The chain of an evaluation has a frame for each of the scopes `S`, and the globals behind them.
A variable with a distance is bound in the frame to which the distance leads. -/
structure Visit.Fits (v : Visit) (S : Scopes) : Prop where
  length : v.chain.length = S.length + 1
  last : v.chain.getLast? = some 0
  distances : match v.node with
    | .expression (.variable name use) => ∀ d, v.world.distances[use]? = some d →
        d < S.length ∧ ∃ i, v.chain[d]? = some i ∧ (v.world.heap.frame i).binds name.lexeme = true
    | .expression (.assign _ _ use) => ∀ d, v.world.distances[use]? = some d → d < S.length
    | _ => True

/-- The evaluation started at a place to which the walk over its program came, and it fits the
scopes that the walk had there. -/
def Visit.Good (programs : Array Accepted) (v : Visit) : Prop :=
  ∃ P S, programs[v.spot.program]? = some P ∧ P.Visits v.spot.path S v.node ∧ v.Fits S

structure Agree (natives : List Native) (pending : Option Nat) (p : Pair) : Prop where
  surface : SameSurface p.watched.world p.lexical
  linked : Linked p.watched.world.heap p.link p.lexical.cells
  genuine : ∀ i x v, (p.watched.world.heap.frame i).get? x = some v →
    Genuine natives p.watched.world.code v
  code : SameCode natives pending p.core
  tabled : Tabled p.watched.programs p.watched.world.nextUse p.watched.world.distances
  visits : ∀ v ∈ p.watched.visits, v.Good p.watched.programs

/-- What is there stays there. Only the frame `i₀` may get new links, of those that were there. -/
structure Grows (i₀ : FrameId) (c c' : Core) : Prop where
  next : c.heap.next ≤ c'.heap.next
  links : ∀ i x l, c.link i x = some l → c'.link i x = some l
  keeps : ∀ i, i < c.heap.next → i ≠ i₀ → c'.link i = c.link i
  binds : ∀ i x, (c.heap.frame i).binds x = true → (c'.heap.frame i).binds x = true
  code : ∀ (id : Nat) (code : Code), c.code[id]? = some code → c'.code[id]? = some code
  programs : ∀ (n : Nat) (P : Accepted), c.programs[n]? = some P → c'.programs[n]? = some P

section Growth

variable {i₀ : FrameId} {c c₁ c₂ : Core}

theorem grows_refl (i₀ : FrameId) (c : Core) : Grows i₀ c c :=
  ⟨Nat.le_refl _, fun _ _ _ => id, fun _ _ _ => rfl, fun _ _ => id, fun _ _ => id, fun _ _ => id⟩

theorem Grows.trans (h : Grows i₀ c c₁) (h' : Grows i₀ c₁ c₂) : Grows i₀ c c₂ where
  next := Nat.le_trans h.next h'.next
  links i x l hl := h'.links i x l (h.links i x l hl)
  keeps i hi hne := by rw [h'.keeps i (Nat.lt_of_lt_of_le hi h.next) hne, h.keeps i hi hne]
  binds i x hx := h'.binds i x (h.binds i x hx)
  code id code hcode := h'.code id code (h.code id code hcode)
  programs n P hP := h'.programs n P (h.programs n P hP)

/-- What touches no frame that was there touches one of them at most. -/
theorem Grows.weaken (h : Grows 0 c c₁) (hlinks : ∀ x, c₁.link 0 x = c.link 0 x) (i₀ : FrameId) :
    Grows i₀ c c₁ :=
  { h with
    keeps := fun i hi _ => by
      by_cases hzero : i = 0
      · subst hzero
        exact funext hlinks
      · exact h.keeps i hi hzero }

/-- New links in a new frame are none in those that were there. -/
theorem Grows.inner {i : FrameId} (h : Grows i₀ c c₁) (h' : Grows i c₁ c₂) (hi : c.heap.next ≤ i) :
    Grows i₀ c c₂ where
  next := Nat.le_trans h.next h'.next
  links j x l hl := h'.links j x l (h.links j x l hl)
  keeps j hj hne := by
    have hji : j ≠ i := Nat.ne_of_lt (Nat.lt_of_lt_of_le hj hi)
    rw [h'.keeps j (Nat.lt_of_lt_of_le hj h.next) hji, h.keeps j hj hne]
  binds j x hx := h'.binds j x (h.binds j x hx)
  code id code hcode := h'.code id code (h.code id code hcode)
  programs n P hP := h'.programs n P (h.programs n P hP)

theorem Covers.grow {S : Scopes} {chain : Chain} {names : Names}
    (hcovers : Covers c.heap c.link S chain names) (h : Grows i₀ c c₁) :
    Covers c₁.heap c₁.link S chain names := hcovers.mono h.next h.links h.binds

theorem Genuine.grow {natives : List Native} {v : Value} (hv : Genuine natives c.code v)
    (h : Grows i₀ c c₁) : Genuine natives c₁.code v := by
  cases hv with
  | plain hplain => exact .plain hplain
  | function hcode arity => exact .function (h.code _ _ hcode) arity
  | native hn arity => exact .native hn arity

theorem Fresh.keep {S : Scopes} {chain : Chain} {names : Names} (hfresh : Fresh c.link S chain)
    (hcovers : Covers c.heap c.link S chain names) (h : Grows 0 c c₁) :
    Fresh c₁.link S chain := by
  cases hcovers with
  | global => trivial
  | scope _ inside known =>
    intro x l hl
    rw [h.keeps _ known (Nat.ne_of_gt inside)] at hl
    exact hfresh x l hl

theorem Corresponds.grow {natives : List Native} {id : Nat} (hid : Corresponds natives c id)
    (h : Grows i₀ c c₁) (hcode : c₁.code[id]? = c.code[id]?)
    (hlexical : c₁.lexical[id]? = c.lexical[id]?) (horigin : c₁.origins id = c.origins id) :
    Corresponds natives c₁ id := by
  cases hid with
  | nothing h₁ h₂ => exact .nothing (hcode.trans h₁) (hlexical.trans h₂)
  | function h₁ h₂ program statements distinct covers settled =>
    rw [← horigin] at program statements
    exact .function (hcode.trans h₁) (hlexical.trans h₂) (h.programs _ _ program) statements
      distinct (covers.grow h) settled
  | native hn => exact .native hn

theorem SameCode.grow {natives : List Native} {pending : Option Nat}
    (hsame : SameCode natives pending c) (h : Grows i₀ c c₁) (hcode : c₁.code = c.code)
    (hlexical : c₁.lexical = c.lexical) (horigins : c₁.origins = c.origins) :
    SameCode natives pending c₁ where
  size := by rw [hcode, hlexical, hsame.size]
  corresponds id hid :=
    (hsame.corresponds id hid).grow h (by rw [hcode]) (by rw [hlexical]) (by rw [horigins])
  native i n hn := by
    rw [hcode, hlexical]
    exact hsame.native i n hn

theorem Visit.Good.grow {v : Visit} (hv : v.Good c.programs) (h : Grows i₀ c c₁) :
    v.Good c₁.programs := by
  obtain ⟨P, S, hP, hrest⟩ := hv
  exact ⟨P, S, h.programs _ _ hP, hrest⟩

end Growth

/-! ## Steps that keep the agreement -/

section Steps

variable {natives : List Native} {pending : Option Nat} {p : Pair}

/-- A step that anyone can see, on both sides alike. -/
theorem Agree.onSurface (h : Agree natives pending p) {w : World} {s : Lexical.State}
    (hsurface : SameSurface w s) (hheap : w.heap = p.watched.world.heap)
    (hcode : w.code = p.watched.world.code) (hnext : w.nextUse = p.watched.world.nextUse)
    (hdistances : w.distances = p.watched.world.distances) (hcells : s.cells = p.lexical.cells)
    (hlexical : s.code = p.lexical.code) :
    Agree natives pending ⟨{ p.watched with world := w }, s, p.link⟩ where
  surface := hsurface
  linked := by
    rw [hcells]
    show Linked w.heap _ _
    rw [hheap]
    exact h.linked
  genuine := by
    show ∀ i x v, (w.heap.frame i).get? x = some v → Genuine natives w.code v
    rw [hheap, hcode]
    exact h.genuine
  code := by
    have hcore : (Pair.mk { p.watched with world := w } s p.link).core = p.core := by
      simp only [Pair.core, hheap, hcode, hlexical]
    rw [hcore]
    exact h.code
  tabled := by
    show Tabled _ w.nextUse w.distances
    rw [hnext, hdistances]
    exact h.tabled
  visits := h.visits

/-- The start of an evaluation is noted. -/
theorem Agree.note (h : Agree natives pending p) {v : Visit} (hv : v.Good p.watched.programs) :
    Agree natives pending
      { p with watched := { p.watched with visits := v :: p.watched.visits } } :=
  { h with
    visits := by
      intro v' hv'
      obtain rfl | hv' := List.mem_cons.1 hv'
      · exact hv
      · exact h.visits v' hv' }

/-- The pair with another heap, other cells and other links. -/
def Pair.store (p : Pair) (heap : Heap) (globals : Frame) (cells : Array Value) (link : Links) :
    Pair :=
  ⟨{ p.watched with world := { p.watched.world with heap } }, { p.lexical with globals, cells },
    link⟩

/-- A frame is added. -/
theorem Agree.newFrame (h : Agree natives pending p) :
    Agree natives pending
        (p.store p.watched.world.heap.grow p.lexical.globals p.lexical.cells p.link) ∧
      Grows 0 p.core
        (p.store p.watched.world.heap.grow p.lexical.globals p.lexical.cells p.link).core := by
  have hgrows : Grows 0 p.core
      (p.store p.watched.world.heap.grow p.lexical.globals p.lexical.cells p.link).core := by
    refine ⟨?_, fun _ _ _ => id, fun _ _ _ => rfl, fun i x hx => ?_, fun _ _ => id, fun _ _ => id⟩
    · simp [Pair.core, Pair.store]
    · simpa [Pair.core, Pair.store] using hx
  refine ⟨⟨?_, ?_, ?_, h.code.grow hgrows rfl rfl rfl, h.tabled, h.visits⟩, hgrows⟩
  · exact { h.surface with globals := by simpa [Pair.store] using h.surface.globals }
  · refine ⟨by simp [Pair.store], fun i x c hc => ?_, h.linked.apart, fun i x v hi hv => ?_⟩
    · obtain ⟨hinside, hknown, hcell⟩ := h.linked.range i x c hc
      exact ⟨hinside, by simpa [Pair.store] using Nat.lt_succ_of_lt hknown, hcell⟩
    · exact h.linked.bound i x v hi (by simpa [Pair.store] using hv)
  · intro i x v hv
    exact h.genuine i x v (by simpa [Pair.store] using hv)

/-- The links with one more. -/
def Links.add (link : Links) (i : FrameId) (x : String) (c : CellId) : Links :=
  fun j y => if j = i ∧ y = x then some c else link j y

theorem Links.add_self (link : Links) (i : FrameId) (x : String) (c : CellId) :
    link.add i x c i x = some c := if_pos ⟨rfl, rfl⟩

theorem Links.add_of_ne (link : Links) {i j : FrameId} {x y : String} (c : CellId)
    (h : ¬ (j = i ∧ y = x)) : link.add i x c j y = link j y := if_neg h

/-- A cell is made for a name that the frame does not have. -/
theorem Agree.newCell (h : Agree natives pending p) {i : FrameId} {x : String} (hinside : 0 < i)
    (hknown : i < p.watched.world.heap.next) (hnew : p.link i x = none) :
    Agree natives pending (p.store p.watched.world.heap p.lexical.globals
        (p.lexical.cells.push .nil) (p.link.add i x p.lexical.cells.size)) ∧
      Grows i p.core (p.store p.watched.world.heap p.lexical.globals (p.lexical.cells.push .nil)
        (p.link.add i x p.lexical.cells.size)).core := by
  have hold : ∀ j y c, p.link j y = some c →
      p.link.add i x p.lexical.cells.size j y = some c := by
    intro j y c hc
    refine (Links.add_of_ne _ _ ?_).trans hc
    rintro ⟨rfl, rfl⟩
    rw [hnew] at hc
    cases hc
  have hgrows : Grows i p.core (p.store p.watched.world.heap p.lexical.globals
      (p.lexical.cells.push .nil) (p.link.add i x p.lexical.cells.size)).core := by
    refine ⟨Nat.le_refl _, hold, fun j _ hne => ?_, fun _ _ => id, fun _ _ => id, fun _ _ => id⟩
    exact funext fun y => Links.add_of_ne _ _ fun heq => hne heq.1
  -- a link is the new one, or one that was there and leads to a cell that was there
  have hcases : ∀ j y c, p.link.add i x p.lexical.cells.size j y = some c →
      (j = i ∧ y = x ∧ c = p.lexical.cells.size) ∨
        p.link j y = some c ∧ c < p.lexical.cells.size := by
    intro j y c hc
    by_cases heq : j = i ∧ y = x
    · obtain ⟨rfl, rfl⟩ := heq
      rw [Links.add_self] at hc
      cases hc
      exact Or.inl ⟨rfl, rfl, rfl⟩
    · rw [Links.add_of_ne _ _ heq] at hc
      exact Or.inr ⟨hc, (h.linked.range j y c hc).2.2⟩
  refine ⟨⟨{ h.surface with }, ⟨h.linked.nonempty, fun j y c hc => ?_, ?_, ?_⟩, h.genuine,
    h.code.grow hgrows rfl rfl rfl, h.tabled, h.visits⟩, hgrows⟩
  · obtain ⟨rfl, rfl, rfl⟩ | ⟨hc, -⟩ := hcases j y c hc
    · exact ⟨hinside, hknown, by simp [Pair.store]⟩
    · obtain ⟨hinside', hknown', hcell⟩ := h.linked.range j y c hc
      exact ⟨hinside', hknown', by simpa [Pair.store] using Nat.lt_succ_of_lt hcell⟩
  · intro j k y z c hc hc'
    obtain ⟨rfl, rfl, rfl⟩ | ⟨hc, hlt⟩ := hcases j y c hc
    · obtain ⟨rfl, rfl, -⟩ | ⟨-, hlt⟩ := hcases k z _ hc'
      · exact ⟨rfl, rfl⟩
      · exact absurd hlt (Nat.lt_irrefl _)
    · obtain ⟨rfl, rfl, rfl⟩ | ⟨hc', -⟩ := hcases k z c hc'
      · exact absurd hlt (Nat.lt_irrefl _)
      · exact h.linked.apart j k y z c hc hc'
  · intro j y v hj hv
    obtain ⟨c, hc, hcell⟩ := h.linked.bound j y v hj hv
    refine ⟨c, hold j y c hc, ?_⟩
    have hlt : c < p.lexical.cells.size := (h.linked.range j y c hc).2.2
    simp only [Pair.store, Array.getElem?_push]
    rw [if_neg (Nat.ne_of_lt hlt)]
    exact hcell

/-- A local variable is written, in its frame and in its cell. -/
theorem Agree.write (h : Agree natives pending p) {i : FrameId} {x : String} {c : CellId}
    {v : Value} (hc : p.link i x = some c) (hv : Genuine natives p.watched.world.code v) :
    Agree natives pending (p.store (p.watched.world.heap.put i x v) p.lexical.globals
        (p.lexical.cells.setIfInBounds c v) p.link) ∧
      Grows 0 p.core (p.store (p.watched.world.heap.put i x v) p.lexical.globals
        (p.lexical.cells.setIfInBounds c v) p.link).core := by
  obtain ⟨hinside, hknown, hcell⟩ := h.linked.range i x c hc
  have hgrows : Grows 0 p.core (p.store (p.watched.world.heap.put i x v) p.lexical.globals
      (p.lexical.cells.setIfInBounds c v) p.link).core := by
    refine ⟨?_, fun _ _ _ => id, fun _ _ _ => rfl, fun j y hy => Heap.binds_put hknown v hy,
      fun _ _ => id, fun _ _ => id⟩
    simp [Pair.core, Pair.store]
  refine ⟨⟨?_, ⟨?_, ?_, h.linked.apart, ?_⟩, ?_, h.code.grow hgrows rfl rfl rfl, h.tabled,
    h.visits⟩, hgrows⟩
  · have hframe : ((p.watched.world.heap.put i x v).frame 0) = p.watched.world.heap.frame 0 :=
      Heap.frame_put_of_ne (Nat.ne_of_lt hinside) x v
    exact { h.surface with globals := hframe.trans h.surface.globals }
  · simpa [Pair.store] using h.linked.nonempty
  · intro j y l hl
    obtain ⟨hj, hj', hl'⟩ := h.linked.range j y l hl
    exact ⟨hj, by simpa [Pair.store] using hj', by simpa [Pair.store] using hl'⟩
  · intro j y u hj hu
    obtain ⟨rfl, rfl, rfl⟩ | ⟨hne, hu⟩ := Heap.get?_put_cases hknown hu
    · exact ⟨c, hc, by simp [Pair.store, hcell]⟩
    · obtain ⟨l, hl, hcell'⟩ := h.linked.bound j y u hj hu
      have hapart : c ≠ l := by
        rintro rfl
        exact hne (h.linked.apart j i y x c hl hc)
      exact ⟨l, hl, (Array.getElem?_setIfInBounds_ne hapart).trans hcell'⟩
  · intro j y u hu
    obtain ⟨-, -, rfl⟩ | ⟨-, hu⟩ := Heap.get?_put_cases hknown hu
    · exact hv
    · exact h.genuine j y u hu

/-- A global is written. -/
theorem Agree.writeGlobal (h : Agree natives pending p) (x : String) {v : Value}
    (hv : Genuine natives p.watched.world.code v) :
    Agree natives pending (p.store (p.watched.world.heap.put 0 x v) (p.lexical.globals.put x v)
        p.lexical.cells p.link) ∧
      Grows 0 p.core (p.store (p.watched.world.heap.put 0 x v) (p.lexical.globals.put x v)
        p.lexical.cells p.link).core := by
  have hknown := h.linked.nonempty
  have hgrows : Grows 0 p.core (p.store (p.watched.world.heap.put 0 x v)
      (p.lexical.globals.put x v) p.lexical.cells p.link).core := by
    refine ⟨?_, fun _ _ _ => id, fun _ _ _ => rfl, fun j y hy => Heap.binds_put hknown v hy,
      fun _ _ => id, fun _ _ => id⟩
    simp [Pair.core, Pair.store]
  refine ⟨⟨?_, ⟨?_, ?_, h.linked.apart, ?_⟩, ?_, h.code.grow hgrows rfl rfl rfl, h.tabled,
    h.visits⟩, hgrows⟩
  · have hframe : (p.watched.world.heap.put 0 x v).frame 0 = p.lexical.globals.put x v := by
      rw [Heap.frame_put_self hknown, h.surface.globals]
    exact { h.surface with globals := hframe }
  · simpa [Pair.store] using hknown
  · intro j y l hl
    obtain ⟨hj, hj', hl'⟩ := h.linked.range j y l hl
    exact ⟨hj, by simpa [Pair.store] using hj', hl'⟩
  · intro j y u hj hu
    obtain ⟨rfl, -, -⟩ | ⟨-, hu⟩ := Heap.get?_put_cases hknown hu
    · exact absurd hj (Nat.lt_irrefl 0)
    · exact h.linked.bound j y u hj hu
  · intro j y u hu
    obtain ⟨-, -, rfl⟩ | ⟨-, hu⟩ := Heap.get?_put_cases hknown hu
    · exact hv
    · exact h.genuine j y u hu

/-- The pair with one function more, not bound to a name yet. -/
def Pair.declare (p : Pair) (spot : Spot) (ps : List Token) (body : List (Stmt UseId))
    (chain : Chain) (names : Names) : Pair :=
  ⟨{ p.watched with
      world := { p.watched.world with
        code := p.watched.world.code.push (.closure ps body chain) }
      origins := fun id => if id = p.watched.world.code.size then spot else p.watched.origins id },
    { p.lexical with code := p.lexical.code.push (.closure ps (Stmt.eraseAll body) names) },
    p.link⟩

theorem getElem?_push_of_some {α : Type} {as : Array α} {i : Nat} {a b : α} (h : as[i]? = some a) :
    (as.push b)[i]? = some a := by
  have hlt : i < as.size := (Array.getElem?_eq_some_iff.1 h).1
  rw [Array.getElem?_push, if_neg (Nat.ne_of_lt hlt)]
  exact h

/-- A function is made. It does not correspond to anything yet. -/
theorem Agree.newFunction (h : Agree natives none p) (spot : Spot) (ps : List Token)
    (body : List (Stmt UseId)) (chain : Chain) (names : Names) :
    Agree natives (some p.watched.world.code.size) (p.declare spot ps body chain names) ∧
      Grows 0 p.core (p.declare spot ps body chain names).core := by
  have hgrows : Grows 0 p.core (p.declare spot ps body chain names).core :=
    ⟨Nat.le_refl _, fun _ _ _ => id, fun _ _ _ => rfl, fun _ _ => id,
      fun _ _ => getElem?_push_of_some, fun _ _ => id⟩
  have hsize : p.watched.world.code.size = p.lexical.code.size := h.code.size
  refine ⟨⟨{ h.surface with }, h.linked, ?_, ⟨?_, ?_, ?_⟩, h.tabled, h.visits⟩, hgrows⟩
  · exact fun i x v hv => (h.genuine i x v hv).grow hgrows
  · simpa [Pair.core, Pair.declare] using hsize
  · intro id hid
    have hne : id ≠ p.watched.world.code.size := fun heq => hid (congrArg some heq)
    refine (h.code.corresponds id (by simp)).grow hgrows ?_ ?_ (if_neg hne)
    · exact Array.getElem?_push.trans (if_neg hne)
    · refine Array.getElem?_push.trans (if_neg ?_)
      rw [← hsize]
      exact hne
  · intro i n hn
    obtain ⟨hcode, hlexical⟩ := h.code.native i n hn
    exact ⟨getElem?_push_of_some hcode, getElem?_push_of_some hlexical⟩

/-- The function that was being made is in order now. -/
theorem Agree.close {id : Nat} (h : Agree natives (some id) p)
    (hid : Corresponds natives p.core id) : Agree natives none p :=
  { h with
    code := { h.code with
      corresponds := fun id' _ => by
        by_cases heq : id' = id
        · subst heq
          exact hid
        · exact h.code.corresponds id' fun hsome => heq (Option.some.inj hsome) } }

/-- New labels and new distances leave those of accepted programs alone. -/
theorem Tabled.extend {programs : Array Accepted} {n n' : Nat} {distances distances' : Distances}
    (h : Tabled programs n distances) (hn : n ≤ n')
    (hkept : ∀ l, l < n ∨ n' ≤ l → distances'[l]? = distances[l]?) :
    Tabled programs n' distances' := by
  refine ⟨fun i P hP => ?_, fun l hl => ?_⟩
  · obtain ⟨hle, hfound⟩ := h.accepted i P hP
    refine ⟨Nat.le_trans hle hn, fun l hl => ?_⟩
    rw [hkept l (Or.inl (Nat.lt_of_lt_of_le hl hle))]
    exact hfound l hl
  · rw [hkept l (Or.inr hl)]
    exact h.fresh l (Nat.le_trans hn hl)

theorem Tabled.push {programs : Array Accepted} {n : Nat} {distances : Distances}
    (h : Tabled programs n distances) {P : Accepted} (hn : P.nextUse = n)
    (hfound : P.found.distances = distances) : Tabled (programs.push P) n distances := by
  refine ⟨fun i Q hQ => ?_, h.fresh⟩
  rw [Array.getElem?_push] at hQ
  split at hQ
  · cases hQ
    exact ⟨Nat.le_of_eq hn, fun l _ => by rw [hfound]⟩
  · exact h.accepted i Q hQ

/-- The pair with other labels in use, and other distances. -/
def Pair.retable (p : Pair) (n : UseId) (distances : Distances) : Pair :=
  { p with watched := { p.watched with
    world := { p.watched.world with nextUse := n, distances := distances } } }

/-- Labels are given out, and distances recorded. -/
theorem Agree.retable (h : Agree natives pending p) {n : UseId} {distances : Distances}
    (htabled : Tabled p.watched.programs n distances) :
    Agree natives pending (p.retable n distances) :=
  { h with surface := { h.surface with }, tabled := htabled }

/-- The pair with one accepted program more. -/
def Pair.accept (p : Pair) (P : Accepted) : Pair :=
  { p with watched := { p.watched with programs := p.watched.programs.push P } }

/-- A program is accepted. -/
theorem Agree.accept (h : Agree natives pending p) {P : Accepted}
    (hn : P.nextUse = p.watched.world.nextUse)
    (hfound : P.found.distances = p.watched.world.distances) :
    Agree natives pending (p.accept P) ∧ Grows 0 p.core (p.accept P).core := by
  have hgrows : Grows 0 p.core (p.accept P).core :=
    ⟨Nat.le_refl _, fun _ _ _ => id, fun _ _ _ => rfl, fun _ _ => id, fun _ _ => id,
      fun _ _ => getElem?_push_of_some⟩
  refine ⟨⟨h.surface, h.linked, h.genuine, h.code.grow hgrows rfl rfl rfl, ?_, ?_⟩, hgrows⟩
  · exact h.tabled.push hn hfound
  · exact fun v hv => (h.visits v hv).grow hgrows

end Steps

end Scriptling
