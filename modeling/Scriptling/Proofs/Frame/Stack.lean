-- A chain of frames is a stack of maps. Seen from a chain, each frame is a map from names to values
-- that keeps its names in order, and no frame stands twice in the chain. So a command does to the
-- maps what it says, a search finds what the least distance finds, and all other frames, those that
-- were left before included, stay as they are.
import Mathlib.Data.List.Nodup
import Scriptling.Frame.Command
import Scriptling.Proofs.Frame.Changes

namespace Scriptling

open Environment (Answer Command)

/-! ## Stacks of maps -/

/-- Maps from names to values, the innermost first. -/
abbrev Layers := List Frame

namespace Layers

/-- How far away the innermost map is that binds a name. -/
def nearest? (layers : Layers) (name : String) : Option Nat := layers.findIdx? (·.binds name)

/-- Look a name up in the map at a distance, and in no other. -/
def read (layers : Layers) (distance : Nat) (name : String) : Answer :=
  match layers[distance]? with
  | none => .fault .noSuchFrame
  | some layer =>
    match layer.get? name with
    | none => .fault (.unboundLocal name)
    | some v => .value v

/-- Bind a name in the map at a distance. -/
def write (layers : Layers) (distance : Nat) (name : String) (v : Value) : Layers :=
  layers.modify distance (·.put name v)

/-- A map, shown as a frame with nothing around it. -/
def shown (layer : Frame) : String := Heap.frameText ⟨#[layer]⟩ 0

/-- The innermost map, marked if there are more. -/
def head : Layers → String
  | [] => ""
  | [layer] => shown layer
  | layer :: _ => shown layer ++ " -> ..."

/-- What a command means for a stack of maps. -/
def step (layers : Layers) : Command → Answer × Layers
  | .define name v => (.nothing, layers.write 0 name v)
  | .get name =>
    match layers.nearest? name.lexeme with
    | some k => (layers.read k name.lexeme, layers)
    | none => (.failed ⟨name, .undefinedVariable name.lexeme⟩, layers)
  | .assign name v =>
    match layers.nearest? name.lexeme with
    | some k => (.nothing, layers.write k name.lexeme v)
    | none => (.failed ⟨name, .undefinedVariable name.lexeme⟩, layers)
  | .getAt distance name => (layers.read distance name, layers)
  | .assignAt distance name v =>
    if distance < layers.length then (.nothing, layers.write distance name v)
    else (.fault .noSuchFrame, layers)
  | .ancestor distance =>
    if distance < layers.length then (.text (head (layers.drop distance)), layers)
    else if distance = layers.length then (.nothing, layers)
    else (.fault .noSuchFrame, layers)
  | .push => (.nothing, .empty :: layers)
  | .pop =>
    match layers with
    | _ :: layer :: outer => (.nothing, layer :: outer)
    | _ => (.nothing, layers)

/-- A search from the inside gives what the least distance gives. -/
theorem findSome?_get? (layers : Layers) (name : String) :
    layers.findSome? (·.get? name) =
      (layers.nearest? name).bind fun k => layers[k]?.bind (·.get? name) := by
  unfold nearest?
  induction layers with
  | nil => rfl
  | cons layer outer ih =>
    rw [List.findIdx?_cons, List.findSome?_cons]
    unfold Bindings.binds
    cases hget : layer.get? name with
    | some v => simp [hget]
    | none =>
      simp only [Option.isSome_none, Bool.false_eq_true, if_false]
      rw [ih, Option.bind_map]
      rfl

end Layers

/-- Serve commands one after the other. -/
def Environment.Command.serve {σ : Type} (step : σ → Command → Answer × σ) (s : σ) :
    List Command → List Answer × σ
  | [] => ([], s)
  | c :: rest =>
    let (answer, next) := step s c
    let (answers, last) := serve step next rest
    (answer :: answers, last)

namespace Environment

/-! ## Sound chains -/

/-- The frames of the chain, as a stack of maps. -/
def layers (env : Environment) : Layers := env.chain.map env.heap.frame

/-- A chain has a frame, no frame twice and only frames that were made, and a frame binds a name
at most once. -/
structure Sound (env : Environment) : Prop where
  inhabited : env.chain ≠ []
  distinct : env.chain.Nodup
  known : ∀ i ∈ env.chain, i < env.heap.next
  once : ∀ i, (env.heap.frame i).names.Nodup

theorem sound_start : start.Sound where
  inhabited := List.cons_ne_nil 0 []
  distinct := List.nodup_singleton 0
  known := by simp [start, globalChain, Heap.start, Heap.next]
  once i := by
    unfold start Heap.frame Heap.start
    rcases i with _ | i <;> simp [Bindings.names, Bindings.empty]

section Changes

variable {env : Environment} {k : Nat} {i : FrameId}

/-- To write to a frame of the chain is to write to the map at its distance. -/
theorem Sound.layers_put (h : env.Sound) (hk : env.chain[k]? = some i) (name : String)
    (v : Value) :
    layers { env with heap := env.heap.put i name v } = env.layers.write k name v := by
  have hi := h.known i (List.mem_of_getElem? hk)
  unfold layers Layers.write
  apply List.ext_getElem?
  intro j
  rw [List.getElem?_modify, List.getElem?_map, List.getElem?_map]
  by_cases hj : k = j
  · subst hj
    simp [hk, Heap.frame_put_self hi]
  · -- another distance leads to another frame, since no frame stands twice in the chain
    cases hother : env.chain[j]? with
    | none => simp
    | some i' =>
      have hne : i' ≠ i := by
        rintro rfl
        obtain ⟨hlt, -⟩ := List.getElem?_eq_some_iff.1 hk
        exact hj ((List.getElem?_inj hlt h.distinct).1 (hk.trans hother.symm))
      simp [hj, Heap.frame_put_of_ne hne]

theorem nodup_withName {names : List String} (h : names.Nodup) (name : String) :
    (withName names name).Nodup := by
  unfold withName
  split
  · exact h
  · rename_i hnew
    exact List.Nodup.append h (List.nodup_singleton name) (by simpa using hnew)

theorem Sound.put (h : env.Sound) (hi : i < env.heap.next) (name : String) (v : Value) :
    Sound { env with heap := env.heap.put i name v } where
  inhabited := h.inhabited
  distinct := h.distinct
  known j hj := by
    rw [Heap.next_put]
    exact h.known j hj
  once j := by
    by_cases hj : j = i
    · subst hj
      rw [Heap.frame_put_self hi, Bindings.names_put]
      exact nodup_withName (h.once j) name
    · rw [Heap.frame_put_of_ne hj]
      exact h.once j

theorem Sound.push (h : env.Sound) : Sound ⟨env.heap.grow, env.heap.next :: env.chain⟩ where
  inhabited := List.cons_ne_nil _ _
  distinct := by
    -- the number of the new frame is that of no frame made before
    refine List.nodup_cons.2 ⟨fun hmem => ?_, h.distinct⟩
    exact Nat.lt_irrefl _ (h.known _ hmem)
  known j hj := by
    rw [Heap.next_grow]
    rcases List.mem_cons.1 hj with rfl | hj
    · exact Nat.lt_succ_self _
    · exact Nat.lt_succ_of_lt (h.known j hj)
  once j := by
    rw [Heap.frame_grow]
    exact h.once j

end Changes

/-! ## One command -/

theorem get?_eq (env : Environment) (name : String) :
    env.heap.get? env.chain name =
      (env.layers.nearest? name).bind fun k => env.layers[k]?.bind (·.get? name) := by
  rw [← Layers.findSome?_get?, layers, List.findSome?_map]
  rfl

theorem holder?_eq (env : Environment) (name : String) :
    env.heap.holder? env.chain name = (env.layers.nearest? name).bind fun k => env.chain[k]? := by
  unfold Heap.holder? layers Layers.nearest?
  rw [List.findIdx?_map, List.find?_eq_bind_findIdx?_getElem?]
  rfl

theorem length_layers (env : Environment) : env.layers.length = env.chain.length :=
  List.length_map _

theorem getElem?_layers (env : Environment) (k : Nat) :
    env.layers[k]? = env.chain[k]?.map env.heap.frame := List.getElem?_map

/-- A frame at the least distance that binds a name is a frame of the chain. -/
theorem getElem?_of_nearest? {env : Environment} {name : String} {k : Nat}
    (h : env.layers.nearest? name = some k) :
    ∃ i, env.chain[k]? = some i ∧ (env.heap.frame i).binds name = true := by
  obtain ⟨hlt, hbinds, -⟩ := List.findIdx?_eq_some_iff_getElem.1 h
  rw [length_layers] at hlt
  refine ⟨env.chain[k], List.getElem?_eq_getElem hlt, ?_⟩
  simpa [layers] using hbinds

theorem getAt_eq (env : Environment) (k : Nat) (name : String) :
    env.step (.getAt k name) = (env.layers.read k name, env) := by
  simp only [step, Layers.read, Heap.getAt, getElem?_layers]
  cases env.chain[k]? with
  | none => rfl
  | some i =>
    simp only [Option.map_some]
    cases (env.heap.frame i).get? name <;> rfl

/-- What is bound at a distance is read there. -/
theorem read_eq {env : Environment} {k : Nat} {i : FrameId} {name : String} {v : Value}
    (hk : env.chain[k]? = some i) (hv : (env.heap.frame i).get? name = some v) :
    env.layers.read k name = .value v := by
  unfold Layers.read
  rw [getElem?_layers, hk]
  simp [hv]

theorem get_eq (env : Environment) (name : Token) :
    env.step (.get name) = ((env.layers.step (.get name)).1, env) := by
  simp only [step, Layers.step, get?_eq]
  cases hnearest : env.layers.nearest? name.lexeme with
  | none => rfl
  | some k =>
    obtain ⟨i, hk, hbinds⟩ := getElem?_of_nearest? hnearest
    obtain ⟨v, hv⟩ := Option.isSome_iff_exists.1 hbinds
    have hvalue : env.layers[k]?.bind (·.get? name.lexeme) = some v := by
      rw [getElem?_layers, hk]
      exact hv
    simp only [Option.bind_some, hvalue, read_eq hk hv]

theorem assign_eq_of_nearest? {env : Environment} {name : Token} {k : Nat} {i : FrameId}
    (h : env.layers.nearest? name.lexeme = some k) (hk : env.chain[k]? = some i) (v : Value) :
    env.step (.assign name v) =
      (.nothing, { env with heap := env.heap.put i name.lexeme v }) := by
  simp only [step, holder?_eq, h, Option.bind_some, hk]

theorem assign_eq_of_none {env : Environment} {name : Token}
    (h : env.layers.nearest? name.lexeme = none) (v : Value) :
    env.step (.assign name v) = (.failed ⟨name, .undefinedVariable name.lexeme⟩, env) := by
  simp only [step, holder?_eq, h, Option.bind_none]

theorem assignAt_eq_of_some {env : Environment} {k : Nat} {i : FrameId}
    (hk : env.chain[k]? = some i) (name : String) (v : Value) :
    env.step (.assignAt k name v) = (.nothing, { env with heap := env.heap.put i name v }) := by
  simp only [step, hk]

theorem assignAt_eq_of_none {env : Environment} {k : Nat} (hk : env.chain[k]? = none)
    (name : String) (v : Value) :
    env.step (.assignAt k name v) = (.fault .noSuchFrame, env) := by
  simp only [step, hk]

theorem Sound.define_eq {env : Environment} (h : env.Sound) (name : String) (v : Value) :
    ∃ i, env.chain[0]? = some i ∧
      env.step (.define name v) = (.nothing, { env with heap := env.heap.put i name v }) := by
  obtain ⟨i, outer, hchain⟩ := List.exists_cons_of_ne_nil h.inhabited
  refine ⟨i, by rw [hchain]; rfl, ?_⟩
  simp only [Environment.step, Heap.define, hchain]

theorem chainHead_eq (h : Heap) (chain : Chain) :
    h.chainHead chain = Layers.head (chain.map h.frame) := by
  rcases chain with _ | ⟨i, _ | ⟨j, outer⟩⟩ <;> rfl

/-- A command keeps a chain sound. -/
theorem Sound.step {env : Environment} (h : env.Sound) (c : Command) : (env.step c).2.Sound := by
  cases c with
  | define name v =>
    obtain ⟨i, hk, heq⟩ := h.define_eq name v
    rw [heq]
    exact h.put (h.known i (List.mem_of_getElem? hk)) name v
  | get name =>
    rw [get_eq]
    exact h
  | assign name v =>
    cases hnearest : env.layers.nearest? name.lexeme with
    | none =>
      rw [assign_eq_of_none hnearest]
      exact h
    | some k =>
      obtain ⟨i, hk, -⟩ := getElem?_of_nearest? hnearest
      rw [assign_eq_of_nearest? hnearest hk]
      exact h.put (h.known i (List.mem_of_getElem? hk)) name.lexeme v
  | getAt k name =>
    rw [getAt_eq]
    exact h
  | assignAt k name v =>
    cases hk : env.chain[k]? with
    | none =>
      rw [assignAt_eq_of_none hk]
      exact h
    | some i =>
      rw [assignAt_eq_of_some hk]
      exact h.put (h.known i (List.mem_of_getElem? hk)) name v
  | ancestor k =>
    simp only [Environment.step]
    split_ifs <;> exact h
  | push => exact h.push
  | pop =>
    simp only [Environment.step]
    split
    · rename_i _ i outer hchain
      have hsub : (i :: outer).Sublist env.chain := by
        rw [hchain]
        exact List.sublist_cons_self _ _
      exact ⟨List.cons_ne_nil i outer, h.distinct.sublist hsub,
        fun j hj => h.known j (hsub.subset hj), h.once⟩
    · exact h

/-- A command on a chain is the command on its stack of maps. -/
theorem Sound.step_eq {env : Environment} (h : env.Sound) (c : Command) :
    ((env.step c).1, (env.step c).2.layers) = env.layers.step c := by
  cases c with
  | define name v =>
    obtain ⟨i, hk, heq⟩ := h.define_eq name v
    rw [heq, h.layers_put hk]
    rfl
  | get name =>
    rw [get_eq]
    simp only [Layers.step]
    cases env.layers.nearest? name.lexeme <;> rfl
  | assign name v =>
    cases hnearest : env.layers.nearest? name.lexeme with
    | none => simp only [assign_eq_of_none hnearest, Layers.step, hnearest]
    | some k =>
      obtain ⟨i, hk, -⟩ := getElem?_of_nearest? hnearest
      simp only [assign_eq_of_nearest? hnearest hk, Layers.step, hnearest, h.layers_put hk]
  | getAt k name =>
    rw [getAt_eq]
    rfl
  | assignAt k name v =>
    simp only [Layers.step, length_layers]
    cases hk : env.chain[k]? with
    | none =>
      have hbeyond := Nat.not_lt.2 (List.getElem?_eq_none_iff.1 hk)
      rw [assignAt_eq_of_none hk, if_neg hbeyond]
    | some i =>
      obtain ⟨hlt, -⟩ := List.getElem?_eq_some_iff.1 hk
      rw [assignAt_eq_of_some hk, h.layers_put hk, if_pos hlt]
  | ancestor k =>
    simp only [Environment.step, Layers.step, length_layers, chainHead_eq, List.map_drop]
    split_ifs <;> rfl
  | push =>
    have hnew : env.heap.frame env.heap.next = .empty := by
      simp [Heap.frame, Heap.next]
    simp [Environment.step, Layers.step, layers, hnew]
  | pop =>
    simp only [Environment.step, Layers.step, layers]
    rcases hchain : env.chain with _ | ⟨i, _ | ⟨j, outer⟩⟩ <;> simp [hchain]

/-! ## The laws of a stack -/

/-- The frame at distance `k` binds the name, and no nearer one does. -/
structure Nearest (env : Environment) (name : String) (k : Nat) (i : FrameId) : Prop where
  place : env.chain[k]? = some i
  bound : (env.heap.frame i).binds name = true
  nearer : ∀ j < k, ∀ other, env.chain[j]? = some other →
    (env.heap.frame other).binds name = false

/-- One binding of one frame is written, and nothing else changes. -/
structure Rebound (env after : Environment) (i : FrameId) (name : String) (v : Value) : Prop where
  chain : after.chain = env.chain
  next : after.heap.next = env.heap.next
  written : (after.heap.frame i).get? name = some v
  names : (after.heap.frame i).names = withName (env.heap.frame i).names name
  others : ∀ other ≠ name, (after.heap.frame i).get? other = (env.heap.frame i).get? other
  elsewhere : ∀ j ≠ i, after.heap.frame j = env.heap.frame j

/-- Each frame is a map, and access by search and by distance follow the laws of a stack of
maps: a name is looked up and assigned in the nearest frame that binds it, and nowhere else. -/
structure Stacked (env : Environment) : Prop where
  once : ∀ i, (env.heap.frame i).names.Nodup
  distinct : env.chain.Nodup
  found : ∀ name, (∃ k i, env.Nearest name k i) ∨
    ∀ i ∈ env.chain, (env.heap.frame i).binds name = false
  get_nearest : ∀ (name : Token) k i, env.Nearest name.lexeme k i →
    ∃ v, (env.heap.frame i).get? name.lexeme = some v ∧ env.step (.get name) = (.value v, env) ∧
      env.step (.getAt k name.lexeme) = (.value v, env)
  get_nowhere : ∀ name : Token, (∀ i ∈ env.chain, (env.heap.frame i).binds name.lexeme = false) →
    env.step (.get name) = (.failed ⟨name, .undefinedVariable name.lexeme⟩, env)
  assign_nearest : ∀ (name : Token) v k i, env.Nearest name.lexeme k i →
    ∃ after, env.step (.assign name v) = (.nothing, after) ∧ env.Rebound after i name.lexeme v ∧
      (∀ j, (after.heap.frame j).names = (env.heap.frame j).names) ∧
      after.step (.get name) = (.value v, after)
  assign_nowhere : ∀ (name : Token) v,
    (∀ i ∈ env.chain, (env.heap.frame i).binds name.lexeme = false) →
      env.step (.assign name v) = (.failed ⟨name, .undefinedVariable name.lexeme⟩, env)
  assign_iff_get : ∀ (name : Token) v,
    (env.step (.assign name v)).1 = .nothing ↔ ∃ u, (env.step (.get name)).1 = .value u
  /-- A distance leads to one frame, and what is further out is not looked at. -/
  getAt_reads : ∀ k name, env.step (.getAt k name) = (env.layers.read k name, env)
  assignAt_writes : ∀ k name v i, env.chain[k]? = some i →
    ∃ after, env.step (.assignAt k name v) = (.nothing, after) ∧ env.Rebound after i name v
  assignAt_beyond : ∀ k name v, env.chain.length ≤ k →
    env.step (.assignAt k name v) = (.fault .noSuchFrame, env)

section Laws

variable {env : Environment} {name : String} {k : Nat} {i : FrameId}

theorem nearest?_eq_some_iff :
    env.layers.nearest? name = some k ↔ ∃ i, env.Nearest name k i := by
  constructor
  · intro h
    obtain ⟨i, hk, hbinds⟩ := getElem?_of_nearest? h
    obtain ⟨_, _, hnearer⟩ := List.findIdx?_eq_some_iff_getElem.1 h
    refine ⟨i, hk, hbinds, fun j hj other hother => ?_⟩
    obtain ⟨hlt, rfl⟩ := List.getElem?_eq_some_iff.1 hother
    simpa [layers] using hnearer j hj
  · rintro ⟨i, hk, hbinds, hnearer⟩
    obtain ⟨hlt, rfl⟩ := List.getElem?_eq_some_iff.1 hk
    refine List.findIdx?_eq_some_iff_getElem.2 ⟨by rwa [length_layers], ?_, fun j hj => ?_⟩
    · simpa [layers] using hbinds
    · have hjlt := Nat.lt_trans hj hlt
      simpa [layers] using hnearer j hj _ (List.getElem?_eq_getElem hjlt)

theorem nearest?_eq_none_iff :
    env.layers.nearest? name = none ↔ ∀ i ∈ env.chain, (env.heap.frame i).binds name = false := by
  unfold Layers.nearest? layers
  simp [List.findIdx?_eq_none_iff]

theorem Nearest.nearest? (h : env.Nearest name k i) : env.layers.nearest? name = some k :=
  nearest?_eq_some_iff.2 ⟨i, h⟩

theorem nearest_or_nowhere (env : Environment) (name : String) :
    (∃ k i, env.Nearest name k i) ∨ ∀ i ∈ env.chain, (env.heap.frame i).binds name = false := by
  cases hnearest : env.layers.nearest? name with
  | none => exact Or.inr (nearest?_eq_none_iff.1 hnearest)
  | some k => exact Or.inl ⟨k, nearest?_eq_some_iff.1 hnearest⟩

theorem get_of_nearest {name : Token} {v : Value} (h : env.Nearest name.lexeme k i)
    (hv : (env.heap.frame i).get? name.lexeme = some v) :
    env.step (.get name) = (.value v, env) := by
  rw [get_eq]
  simp only [Layers.step, h.nearest?, read_eq h.place hv]

theorem Sound.rebound (h : env.Sound) (hk : env.chain[k]? = some i) (name : String) (v : Value) :
    env.Rebound { env with heap := env.heap.put i name v } i name v := by
  have hi := h.known i (List.mem_of_getElem? hk)
  refine ⟨rfl, Heap.next_put .., ?_, ?_, fun other hother => ?_, fun j hj => ?_⟩
  · rw [Heap.frame_put_self hi, Bindings.get?_put_self]
  · rw [Heap.frame_put_self hi, Bindings.names_put]
  · rw [Heap.frame_put_self hi, Bindings.get?_put_of_ne _ hother]
  · exact Heap.frame_put_of_ne hj name v

/-- A name that the frame binds keeps its place there. -/
theorem Rebound.names_eq {after : Environment} {v : Value} (h : env.Rebound after i name v)
    (hbinds : (env.heap.frame i).binds name = true) (j : FrameId) :
    (after.heap.frame j).names = (env.heap.frame j).names := by
  by_cases hj : j = i
  · subst hj
    rw [h.names, withName_of_mem (Bindings.mem_names_of_binds hbinds)]
  · rw [h.elsewhere j hj]

/-- A nearest frame is still the nearest after it was written. -/
theorem Nearest.rebound {after : Environment} {v : Value} (h : env.Nearest name k i)
    (hafter : env.Rebound after i name v) : after.Nearest name k i where
  place := by rw [hafter.chain, h.place]
  bound := by
    unfold Bindings.binds
    rw [hafter.written]
    rfl
  nearer j hj other hother := by
    rw [hafter.chain] at hother
    have hfalse := h.nearer j hj other hother
    -- the frame that was written bound the name before, so it is none of the nearer ones
    have hne : other ≠ i := by
      rintro rfl
      rw [h.bound] at hfalse
      cases hfalse
    rw [hafter.elsewhere other hne]
    exact hfalse

theorem get_of_nowhere {name : Token}
    (h : ∀ i ∈ env.chain, (env.heap.frame i).binds name.lexeme = false) :
    env.step (.get name) = (.failed ⟨name, .undefinedVariable name.lexeme⟩, env) := by
  rw [get_eq]
  simp only [Layers.step, nearest?_eq_none_iff.2 h]

theorem assign_iff_get (env : Environment) (name : Token) (v : Value) :
    (env.step (.assign name v)).1 = .nothing ↔ ∃ u, (env.step (.get name)).1 = .value u := by
  rcases env.nearest_or_nowhere name.lexeme with ⟨k, i, hnearest⟩ | hnowhere
  · obtain ⟨u, hu⟩ := Option.isSome_iff_exists.1 hnearest.bound
    rw [assign_eq_of_nearest? hnearest.nearest? hnearest.place, get_of_nearest hnearest hu]
    simp
  · rw [assign_eq_of_none (nearest?_eq_none_iff.2 hnowhere), get_of_nowhere hnowhere]
    simp

theorem Sound.stacked (h : env.Sound) : env.Stacked where
  once := h.once
  distinct := h.distinct
  found := env.nearest_or_nowhere
  get_nearest name k i hnearest := by
    obtain ⟨v, hv⟩ := Option.isSome_iff_exists.1 hnearest.bound
    refine ⟨v, hv, get_of_nearest hnearest hv, ?_⟩
    rw [getAt_eq, read_eq hnearest.place hv]
  get_nowhere _ hnowhere := get_of_nowhere hnowhere
  assign_nearest name v k i hnearest := by
    have hafter := h.rebound hnearest.place name.lexeme v
    refine ⟨_, assign_eq_of_nearest? hnearest.nearest? hnearest.place v, hafter, ?_, ?_⟩
    · exact hafter.names_eq hnearest.bound
    · exact get_of_nearest (hnearest.rebound hafter) hafter.written
  assign_nowhere name v hnowhere := assign_eq_of_none (nearest?_eq_none_iff.2 hnowhere) v
  assign_iff_get := env.assign_iff_get
  getAt_reads := env.getAt_eq
  assignAt_writes k name v i hk := ⟨_, assignAt_eq_of_some hk name v, h.rebound hk name v⟩
  assignAt_beyond k name v hk := assignAt_eq_of_none (List.getElem?_eq_none_iff.2 hk) name v

end Laws

/-! ## Runs -/

/-- A run on a sound chain is the run on its stack of maps, and ends in a sound chain. -/
theorem Sound.serve {env : Environment} (h : env.Sound) (commands : List Command) :
    ((Command.serve Environment.step env commands).1,
        (Command.serve Environment.step env commands).2.layers) =
      Command.serve Layers.step env.layers commands ∧
    (Command.serve Environment.step env commands).2.Sound := by
  induction commands generalizing env with
  | nil => exact ⟨rfl, h⟩
  | cons c rest ih =>
    have hstep := h.step_eq c
    obtain ⟨hrest, hsound⟩ := ih (h.step c)
    refine ⟨?_, hsound⟩
    simp only [Command.serve]
    rw [← hstep, ← hrest]

/-- Whatever commands were served, the answers are those of a stack of maps, the chain holds the
maps of that stack, and the laws of a stack hold of it. -/
theorem serve_as_stack (commands : List Command) :
    let served := Command.serve step start commands
    let meant := Command.serve Layers.step [.empty] commands
    served.1 = meant.1 ∧ served.2.layers = meant.2 ∧ served.2.Stacked := by
  intro served meant
  obtain ⟨hserved, hsound⟩ := sound_start.serve commands
  have hstart : start.layers = [.empty] := rfl
  rw [hstart] at hserved
  exact ⟨congrArg Prod.fst hserved, congrArg Prod.snd hserved, hsound.stacked⟩

end Environment

end Scriptling
