-- What happens inside. Code in a block or in a function sees frames of its own in front of the
-- globals, one for each scope around it, so a recorded distance never leads to the globals, and
-- nothing that such code does can give the globals another name. Nor does it report anything.
import Scriptling.Proofs.Frame.Changes
import Scriptling.Proofs.Run.InStep
import Scriptling.Proofs.Run.Keeps

namespace Scriptling

/-! ## Chains inside the globals -/

/-- A chain of `k` frames in front of the globals. -/
inductive Nested : Nat → Chain → Prop
  | global : Nested 0 globalChain
  | frame {k : Nat} {i : FrameId} {chain : Chain} (outer : Nested k chain) (inside : 0 < i) :
      Nested (k + 1) (i :: chain)

/-- A step out over fewer frames than there are does not lead to the globals. -/
theorem Nested.getElem? {k d : Nat} {chain : Chain} (h : Nested k chain) (hd : d < k) :
    ∃ i, chain[d]? = some i ∧ 0 < i := by
  induction h generalizing d with
  | global => cases hd
  | @frame k i chain outer inside ih =>
    cases d with
    | zero => exact ⟨i, rfl, inside⟩
    | succ d => exact ih (Nat.lt_of_succ_lt_succ hd)

namespace Scopes

@[simp] theorem length_note (S : Scopes) (name : String) (b : Bool) :
    (S.note name b).length = S.length := by
  cases S <;> rfl

@[simp] theorem length_after (S : Scopes) (s : Stmt UseId) : (S.after s).length = S.length := by
  cases s with
  | var | function => exact length_note S _ _
  | _ => rfl

theorem distance?_lt {S : Scopes} {name : String} {d : Nat} (h : S.distance? name = some d) :
    d < S.length := by
  obtain ⟨hlt, -⟩ := List.findIdx?_eq_some_iff_getElem.1 h
  exact hlt

end Scopes

/-! ## The names of the globals -/

/-- The names of the globals, in the order in which they were first bound. -/
def World.globalNames (w : World) : List String := (w.heap.frame 0).names

/-! ## Worlds in which code keeps inside -/

/-- The world has the distances that the walk over a program found. -/
structure Accepted.RecordedIn (P : Accepted) (w : World) : Prop where
  next : P.nextUse ≤ w.nextUse
  distances : ∀ l < P.nextUse, w.distances[l]? = P.found.distances[l]?

theorem Accepted.RecordedIn.later {P : Accepted} {w v : World} (h : P.RecordedIn w)
    (hv : Later w v) : P.RecordedIn v where
  next := Nat.le_trans h.next hv.next
  distances l hl := (hv.kept l (Nat.lt_of_lt_of_le hl h.next)).trans (h.distances l hl)

/-- A function is a part of an accepted program, and sees a frame for each scope around it. A
native runs no source. -/
inductive Enclosed (w : World) : Code → Prop
  | closure {P : Accepted} {scope : Scope} {S : Scopes} {path : Trail} {ps : List Token}
      {ss : List (Stmt UseId)} {chain : Chain} (recorded : P.RecordedIn w)
      (outer : Nested S.length chain) (body : ScopedBody P true (scope :: S) path 0 ss) :
      Enclosed w (.closure ps ss chain)
  | host {act : List Value → Action} (quiet : ∀ arguments text, ¬ (act arguments).MayRun text) :
      Enclosed w (.host act)

theorem Enclosed.later {w v : World} {c : Code} (h : Enclosed w c) (hv : Later w v) :
    Enclosed v c := by
  cases h with
  | closure recorded outer body => exact .closure (recorded.later hv) outer body
  | host quiet => exact .host quiet

/-- All code of the session keeps inside. -/
structure World.Orderly (w : World) : Prop where
  next : 0 < w.heap.next
  code : ∀ c ∈ w.code, Enclosed w c
  fresh : w.Fresh

/-- From `w` the session has come to `v` with nothing new in the tables and no report, and now the
globals have the given names. -/
structure Reached (w : World) (names : List String) (v : World) : Prop where
  orderly : v.Orderly
  nextUse : v.nextUse = w.nextUse
  distances : v.distances = w.distances
  reports : v.reports = w.reports
  /-- No static error has shown up. -/
  quiet : w.hadError = false → v.hadError = false
  names : v.globalNames = names

/-- From `w` the session has come to `v`, and the globals have the names that they had. -/
abbrev Confined (w : World) : World → Prop := Reached w w.globalNames

section Steps

variable {w v v' : World} {names names' : List String}

/-- The tables are the same in both worlds. -/
theorem Reached.back (h : Reached w names v) : Later v w :=
  ⟨Nat.le_of_eq h.nextUse, fun _ _ => by rw [h.distances]⟩

theorem Reached.later (h : Reached w names v) : Later w v :=
  ⟨Nat.le_of_eq h.nextUse.symm, fun _ _ => by rw [h.distances]⟩

theorem World.Orderly.confined (h : w.Orderly) : Confined w w := ⟨h, rfl, rfl, rfl, id, rfl⟩

/-- A step that leaves the tables alone, and adds no code but such that keeps inside. -/
theorem Reached.step (h : Reached w names v) (hnext : 0 < v'.heap.next)
    (hcode : ∀ c ∈ v'.code, c ∈ v.code ∨ Enclosed w c)
    (htables : v'.nextUse = v.nextUse ∧ v'.distances = v.distances)
    (hreports : v'.reports = v.reports) (hquiet : v.hadError = false → v'.hadError = false)
    (hnames : v'.globalNames = names') : Reached w names' v' := by
  have hlater : Later v v' := ⟨Nat.le_of_eq htables.1.symm, fun _ _ => by rw [htables.2]⟩
  refine ⟨⟨hnext, fun c hc => ?_, fun l hl => ?_⟩, htables.1.trans h.nextUse,
    htables.2.trans h.distances, hreports.trans h.reports, fun hw => hquiet (h.quiet hw), hnames⟩
  · obtain hc | hc := hcode c hc
    · exact (h.orderly.code c hc).later hlater
    · exact hc.later (h.later.trans hlater)
  · rw [htables.2]
    exact h.orderly.fresh l (htables.1 ▸ hl)

/-- A step that changes the frames only. -/
theorem Reached.frames (h : Reached w names v) {heap : Heap} (hnext : 0 < heap.next)
    (hnames : (heap.frame 0).names = names') : Reached w names' { v with heap := heap } :=
  h.step hnext (fun _ hc => Or.inl hc) ⟨rfl, rfl⟩ rfl id hnames

/-- A variable is written in a frame inside. -/
theorem Reached.write (h : Reached w names v) {i : FrameId} (hi : 0 < i) (name : String)
    (value : Value) : Reached w names { v with heap := v.heap.put i name value } := by
  refine h.frames ?_ ?_
  · rw [Heap.next_put]
    exact h.orderly.next
  · rw [Heap.frame_put_of_ne (Nat.ne_of_lt hi)]
    exact h.names

/-- A global is written, which is new if its name is. -/
theorem Reached.writeGlobal (h : Reached w names v) (name : String) (value : Value) :
    Reached w (withName names name) { v with heap := v.heap.put 0 name value } := by
  refine h.frames ?_ ?_
  · rw [Heap.next_put]
    exact h.orderly.next
  · rw [Heap.frame_put_self h.orderly.next, Bindings.names_put, ← h.names]
    rfl

theorem keeps_print (line : String) : Keeps (Confined w) (Eval.print line) :=
  keeps_modify fun _ h => h.step h.orderly.next (fun _ hc => Or.inl hc) ⟨rfl, rfl⟩ rfl id h.names

theorem keeps_readClock : Keeps (Confined w) Eval.readClock :=
  keeps_modifyGet fun _ h => h.step h.orderly.next (fun _ hc => Or.inl hc) ⟨rfl, rfl⟩ rfl id h.names

/-- The new frame is none of the globals. -/
theorem keeps_openFrame {α : Type} {chain : Chain} {f : Chain → Eval α}
    (h : ∀ i, 0 < i → Keeps (Confined w) (f (i :: chain))) :
    Keeps (Confined w) (Eval.openFrame chain >>= f) := by
  intro v hv
  refine h v.heap.next hv.orderly.next _ (hv.frames ?_ ?_)
  · rw [Heap.next_grow]
    exact Nat.succ_pos _
  · rw [Heap.frame_grow]
    exact hv.names

theorem keeps_define {k : Nat} {chain : Chain} (hchain : Nested (k + 1) chain) (name : String)
    (value : Value) : Keeps (Confined w) (Eval.define chain name value) := by
  cases hchain with
  | frame _ inside => exact keeps_modify fun _ h => h.write inside name value

theorem keeps_defineAll {k : Nat} {chain : Chain} (hchain : Nested (k + 1) chain)
    (ps : List Token) (vs : List Value) : Keeps (Confined w) (Eval.defineAll chain ps vs) := by
  induction ps generalizing vs with
  | nil => exact keeps_pure ()
  | cons p ps ih =>
    cases vs with
    | nil => exact keeps_pure ()
    | cons v vs => exact (keeps_define hchain p.lexeme v).bind fun _ => ih vs

theorem keeps_distance {α : Type} {use : UseId} {f : Option Nat → Eval α}
    (h : Keeps (Confined w) (f w.distances[use]?)) :
    Keeps (Confined w) (Eval.distance? use >>= f) := by
  intro v hv
  show Confined w (Eval.behind (f v.distances[use]?) v)
  rw [hv.distances]
  exact h v hv

theorem keeps_readGlobal (name : Token) : Keeps (Confined w) (Eval.readGlobal name) := by
  refine keeps_get fun v hv => ?_
  split
  · exact hv
  · exact hv

theorem keeps_readAt (chain : Chain) (d : Nat) (name : String) :
    Keeps (Confined w) (Eval.readAt chain d name) := by
  refine keeps_get fun v hv => ?_
  split
  · exact hv
  · exact hv

/-- Only a global that is bound can be assigned. -/
theorem keeps_assignGlobal (name : Token) (value : Value) :
    Keeps (Confined w) (Eval.assignGlobal name value) := by
  refine keeps_get fun v hv => ?_
  split
  · rename_i i hi
    obtain rfl : i = 0 := List.mem_singleton.1 (List.mem_of_find?_eq_some hi)
    have hbinds : (v.heap.frame 0).binds name.lexeme = true :=
      List.find?_some (p := fun j => (v.heap.frame j).binds name.lexeme) hi
    have hmem : name.lexeme ∈ w.globalNames := hv.names ▸ Bindings.mem_names_of_binds hbinds
    have hwrite := hv.writeGlobal name.lexeme value
    rw [withName_of_mem hmem] at hwrite
    exact hwrite
  · exact hv

theorem keeps_assignAt {k d : Nat} {chain : Chain} (hchain : Nested k chain) (hd : d < k)
    (name : String) (value : Value) : Keeps (Confined w) (Eval.assignAt chain d name value) := by
  obtain ⟨i, hi, hpos⟩ := hchain.getElem? hd
  unfold Eval.assignAt
  rw [hi]
  exact keeps_modify fun _ h => h.write hpos name value

theorem keeps_addFunction {ps : List Token} {ss : List (Stmt UseId)} {chain : Chain}
    (hcode : Enclosed w (.closure ps ss chain)) (name : String) :
    Keeps (Confined w) (modifyGet (·.addFunction name ps ss chain)) := by
  refine keeps_modifyGet fun v h => ?_
  refine h.step h.orderly.next (fun c hc => ?_) ⟨rfl, rfl⟩ rfl id h.names
  obtain hc | rfl := Array.mem_push.1 hc
  · exact Or.inl hc
  · exact Or.inr hcode

theorem keeps_codeOf {α : Type} {f : Value} {g : Option Code → Eval α}
    (hnone : Keeps (Confined w) (g none))
    (hsome : ∀ c, Enclosed w c → Keeps (Confined w) (g (some c))) :
    Keeps (Confined w) (Eval.codeOf? f >>= g) := by
  unfold Eval.codeOf?
  cases f.callable? with
  | none => exact hnone
  | some c =>
    intro v hv
    show Confined w (Eval.behind (g v.code[c.id]?) v)
    cases hcode : v.code[c.id]? with
    | none => exact hnone v hv
    | some code =>
      exact hsome code ((hv.orderly.code code (Array.mem_of_getElem? hcode)).later hv.back) v hv

end Steps

/-! ## Evaluation keeps inside -/

/-- All of evaluation at one depth. A statement outside all scopes is no declaration here. -/
structure KeepsInside (w : World) (patience depth : Nat) : Prop where
  expression : ∀ {P : Accepted} {S : Scopes} {path : Trail} {chain : Chain} {e : Expr UseId},
    P.RecordedIn w → Nested S.length chain → ScopedExpr P S path e →
    Keeps (Confined w) (Eval.expression patience depth chain e)
  values : ∀ {P : Accepted} {S : Scopes} {chain : Chain} {es : List (Expr UseId)},
    P.RecordedIn w → Nested S.length chain → (∀ e ∈ es, ∃ path, ScopedExpr P S path e) →
    Keeps (Confined w) (Eval.values patience depth chain es)
  statement : ∀ {P : Accepted} {b : Bool} {S : Scopes} {path : Trail} {chain : Chain}
    {s : Stmt UseId}, P.RecordedIn w → Nested S.length chain → ScopedStmt P b S path s →
    (S = [] → s.declares = false) →
    Keeps (Confined w) (Eval.statement patience depth chain s)
  statements : ∀ {P : Accepted} {b : Bool} {scope : Scope} {S : Scopes} {path : Trail}
    {chain : Chain} {ss : List (Stmt UseId)}, P.RecordedIn w → Nested (S.length + 1) chain →
    ScopedBody P b (scope :: S) path 0 ss →
    Keeps (Confined w) (Eval.statements patience depth chain ss)
  apply : ∀ (f : Value) (vs : List Value) (paren : Token),
    Keeps (Confined w) (Eval.apply patience depth f vs paren)
  invoke : ∀ (f : Value) (vs : List Value),
    Keeps (Confined w) (Eval.invoke patience depth f vs)

section Evaluation

variable {w : World} {patience depth : Nat} {P : Accepted} {S : Scopes} {path : Trail}
  {chain : Chain}

/-- The distance of a use leads to a frame inside. -/
theorem Accepted.RecordedIn.distance_lt (h : P.RecordedIn w) {use : UseId} {name : String}
    (hbelow : use < P.nextUse) (hrecorded : P.found.distances[use]? = S.distance? name) {d : Nat}
    (hd : w.distances[use]? = some d) : d < S.length := by
  rw [h.distances use hbelow, hrecorded] at hd
  exact Scopes.distance?_lt hd

theorem keeps_expression (h : KeepsInside w patience depth) (hP : P.RecordedIn w)
    (hchain : Nested S.length chain) {e : Expr UseId} (he : ScopedExpr P S path e) :
    Keeps (Confined w) (Eval.expression patience (depth + 1) chain e) := by
  cases he with
  | literal => exact keeps_pure _
  | grouping _ inner => exact h.expression hP hchain inner
  | unary _ _ right =>
    refine (h.expression hP hchain right).bind fun a => ?_
    exact (keeps_room _ _).bind fun _ => keeps_ofOperator _
  | binary _ _ left right =>
    refine (h.expression hP hchain left).bind fun a => ?_
    refine (h.expression hP hchain right).bind fun b => ?_
    exact (keeps_room _ _).bind fun _ => keeps_ofOperator _
  | logical _ left right =>
    refine (h.expression hP hchain left).bind fun a => ?_
    split
    · exact keeps_pure a
    · exact h.expression hP hchain right
  | «variable» _ below recorded _ =>
    refine keeps_distance ?_
    split
    · exact (keeps_room _ _).bind fun _ => keeps_readAt _ _ _
    · exact (keeps_room _ _).bind fun _ => keeps_readGlobal _
  | assign _ below recorded value =>
    refine (h.expression hP hchain value).bind fun a => keeps_distance ?_
    split
    · rename_i d hd
      have hlt := hP.distance_lt below recorded hd
      refine (keeps_room _ _).bind fun _ => ?_
      exact (keeps_assignAt hchain hlt _ a).bind fun _ => keeps_pure a
    · refine (keeps_room _ _).bind fun _ => ?_
      exact (keeps_assignGlobal _ a).bind fun _ => keeps_pure a
  | call _ callee arguments =>
    refine (h.expression hP hchain callee).bind fun f => ?_
    refine (h.values hP hchain fun e' he' => ?_).bind fun vs => h.apply f vs _
    obtain ⟨i, hi⟩ := List.mem_iff_getElem?.1 he'
    exact ⟨_, arguments i e' hi⟩

theorem keeps_statement (h : KeepsInside w patience depth) (hP : P.RecordedIn w)
    (hchain : Nested S.length chain) {b : Bool} {s : Stmt UseId} (hs : ScopedStmt P b S path s)
    (hplain : S = [] → s.declares = false) :
    Keeps (Confined w) (Eval.statement patience (depth + 1) chain s) := by
  -- where something is declared there is a scope around, and a frame for it
  have hinside : s.declares = true → ∃ k, Nested (k + 1) chain := by
    intro hdeclares
    cases S with
    | nil => exact absurd (hplain rfl) (by simp [hdeclares])
    | cons scope S => exact ⟨S.length, hchain⟩
  cases hs with
  | expression _ value =>
    exact (h.expression hP hchain value).bind fun _ => keeps_pure none
  | print _ value =>
    refine (h.expression hP hchain value).bind fun v => ?_
    exact (keeps_print _).bind fun _ => keeps_pure none
  | @var _ _ _ name e _ _ value =>
    obtain ⟨k, hinner⟩ := hinside rfl
    have hdefine : ∀ v, Keeps (Confined w) (do
        Eval.define chain name.lexeme v
        return (none : Option Value)) := fun v =>
      (keeps_define hinner name.lexeme v).bind fun _ => keeps_pure none
    cases e with
    | none => exact hdefine .nil
    | some e =>
      refine (h.expression hP ?_ (value e rfl)).bind hdefine
      rwa [Scopes.length_note]
  | block _ body =>
    exact keeps_openFrame fun i hi => h.statements hP (.frame hchain hi) body
  | @branch _ _ _ _ _ no _ condition yes hyes hno hnone =>
    refine (h.expression hP hchain condition).bind fun v => ?_
    split
    · exact h.statement hP hchain yes fun _ => hyes
    · cases no with
      | none => exact keeps_pure none
      | some s => exact h.statement hP hchain (hno s rfl) fun _ => hnone s rfl
  | loop _ condition body hbody =>
    refine keeps_repeatWhile ?_ (h.statement hP hchain body fun _ => hbody) patience
    exact (h.expression hP hchain condition).bind fun v => keeps_pure _
  | @function _ _ _ name ps ss _ _ _ body =>
    obtain ⟨k, hinner⟩ := hinside rfl
    have hcode : Enclosed w (.closure ps ss chain) := by
      refine .closure hP ?_ body
      rwa [Scopes.length_note]
    refine (keeps_addFunction hcode name.lexeme).bind fun f => ?_
    exact (keeps_define hinner name.lexeme f).bind fun _ => keeps_pure none
  | @giveBack _ _ _ e _ value =>
    cases e with
    | none => exact keeps_pure _
    | some e => exact (h.expression hP hchain (value e rfl)).bind fun v => keeps_pure _

/-- A statement changes the scopes around the next, but not how many they are. -/
theorem keeps_body (h : KeepsInside w patience depth) (hP : P.RecordedIn w)
    (hchain : Nested S.length chain) (hne : S ≠ []) {b : Bool} {i : Nat} {ss : List (Stmt UseId)}
    (hss : ScopedBody P b S path i ss) :
    Keeps (Confined w) (Eval.sequence (Eval.statement patience depth chain) ss) := by
  induction ss generalizing S i with
  | nil => exact keeps_pure none
  | cons s ss ih =>
    cases hss with
    | cons first rest =>
      refine (h.statement hP hchain first (absurd · hne)).bind fun r => ?_
      cases r with
      | some v => exact keeps_pure (some v)
      | none =>
        refine ih ?_ ?_ rest
        · rwa [Scopes.length_after]
        · rw [← List.length_pos_iff, Scopes.length_after]
          exact List.length_pos_iff.2 hne

theorem keeps_apply (h : ∀ d < depth, KeepsInside w patience d) (f : Value) (vs : List Value)
    (paren : Token) : Keeps (Confined w) (Eval.apply patience depth f vs paren) := by
  obtain hlt | hle := Nat.lt_or_ge depth 7
  · rw [Eval.apply_of_lt hlt]
    exact keeps_throw .overflow
  obtain ⟨depth, rfl⟩ := Nat.exists_eq_add_of_le' hle
  rw [Eval.apply]
  cases f.callable? with
  | none => exact keeps_throw _
  | some c =>
    dsimp only
    split
    · exact keeps_throw _
    · refine ((h (depth + 6) (by omega)).invoke f vs).tryCatch fun stop => ?_
      cases stop <;> exact keeps_throw _

theorem keeps_invoke (h : ∀ d < depth, KeepsInside w patience d) (f : Value) (vs : List Value) :
    Keeps (Confined w) (Eval.invoke patience depth f vs) := by
  obtain hlt | hle := Nat.lt_or_ge depth 4
  · rw [Eval.invoke_of_lt hlt]
    exact keeps_throw .overflow
  obtain ⟨depth, rfl⟩ := Nat.exists_eq_add_of_le' hle
  rw [Eval.invoke]
  refine keeps_codeOf (keeps_throw _) fun c hc => ?_
  cases hc with
  | @closure P scope S path ps ss chain recorded outer body =>
    refine keeps_openFrame fun i hi => ?_
    have hinner : Nested (S.length + 1) (i :: chain) := .frame outer hi
    refine (keeps_defineAll hinner ps vs).bind fun _ => ?_
    exact ((h (depth + 2) (by omega)).statements recorded hinner body).bind fun r => keeps_pure _
  | host quiet =>
    refine keeps_perform keeps_readClock (fun f vs => (h (depth + 2) (by omega)).invoke f vs)
      fun source hsource => ?_
    have hreset : Keeps (Confined w) (modify fun w => { w with hadError := false }) :=
      keeps_modify fun _ h => h.step h.orderly.next (fun _ hc => Or.inl hc) ⟨rfl, rfl⟩ rfl
        (fun _ => rfl) h.names
    refine hreset.bind fun _ => ?_
    cases source with
    | text s => exact absurd (hsource s rfl) (quiet vs s)
    | _ => exact keeps_throw _

end Evaluation

/-- Evaluation of code inside leaves the names of the globals as they are. -/
theorem keepsInside (w : World) (patience depth : Nat) : KeepsInside w patience depth := by
  induction depth using Nat.strongRecOn with
  | _ depth ih =>
    refine ⟨?_, ?_, ?_, ?_, keeps_apply ih, keeps_invoke ih⟩
    · intro P S path chain e hP hchain he
      cases depth with
      | zero => exact keeps_throw .overflow
      | succ depth => exact keeps_expression (ih depth (Nat.lt_succ_self depth)) hP hchain he
    · intro P S chain es hP hchain hes
      cases depth with
      | zero => exact keeps_throw .overflow
      | succ depth =>
        refine keeps_mapM fun e he => ?_
        obtain ⟨path, hscoped⟩ := hes e he
        exact (ih depth (Nat.lt_succ_self depth)).expression hP hchain hscoped
    · intro P b S path chain s hP hchain hs hplain
      cases depth with
      | zero => exact keeps_throw .overflow
      | succ depth => exact keeps_statement (ih depth (Nat.lt_succ_self depth)) hP hchain hs hplain
    · intro P b scope S path chain ss hP hchain hss
      cases depth with
      | zero => exact keeps_throw .overflow
      | succ depth =>
        exact keeps_body (S := scope :: S) (ih depth (Nat.lt_succ_self depth)) hP hchain
          (List.cons_ne_nil _ _) hss

end Scriptling
