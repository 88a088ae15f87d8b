-- What is asked of natives. A native uses only values that it can know, and calls functions with
-- as many arguments as they have parameters. Whether natives may fail by themselves is left open:
-- a host is fair with failures allowed, or without.
import Scriptling.Host

namespace Scriptling

/-- The native with the given number, as a value. -/
def Native.value (i : Nat) (n : Native) : Value := .native ⟨i, n.name, n.arity⟩

/-- A call of `f` with `count` arguments. Only a host that may fail calls what cannot be called, or
its own natives with a wrong number of arguments. -/
def FairCall (mayFail : Prop) (f : Value) (count : Nat) : Prop :=
  match f with
  | .function c => count = c.arity
  | .native c => mayFail ∨ count = c.arity
  | _ => mayFail

/-- The action uses known values only, those that its calls give included. -/
def Action.Fair (mayFail : Prop) : (Value → Prop) → Action → Prop
  | known, .done v => known v
  | _, .fail _ => mayFail
  | known, .readClock next => ∀ t, (next t).Fair mayFail known
  | known, .call f vs next => known f ∧ (∀ v ∈ vs, known v) ∧ FairCall mayFail f vs.length ∧
      ∀ v, (next v).Fair mayFail fun u => u = v ∨ known u
  | known, .run source next => ((∃ s, source = .text s) ∨ mayFail) ∧ next.Fair mayFail known

/-- What a native of the host knows: plain values, its arguments, and the natives. -/
def Knows (natives : List Native) (arguments : List Value) (v : Value) : Prop :=
  v.callable? = none ∨ v ∈ arguments ∨
    ∃ i, ∃ n : Native, natives[i]? = some n ∧ v = n.value i

/-- All natives of the host are fair, at least where they get as many arguments as they want. -/
def FairHost (mayFail : Prop) (natives : List Native) : Prop :=
  ∀ n ∈ natives, ∀ arguments, (mayFail ∨ arguments.length = n.arity) →
    (n.act arguments).Fair mayFail (Knows natives arguments)

/-- The clock never fails. -/
theorem fairHost_standard (mayFail : Prop) : FairHost mayFail Native.standard := by
  intro n hn arguments _
  rw [List.mem_singleton.1 hn]
  intro t
  exact Or.inl rfl

end Scriptling
