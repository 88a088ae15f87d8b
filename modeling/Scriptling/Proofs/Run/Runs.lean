-- Runs over any state. The steps of evaluation that do not look at the state are the same over all
-- states; those of a session are one case of them.
import Scriptling.Evaluation

namespace Scriptling

/-- A computation over a state, which may stop early. -/
abbrev Runs (σ : Type) := EStateM Stop σ

namespace Runs

variable {σ : Type}

/-- Fail with a stack overflow where fewer than `n` levels are left. -/
def room (depth n : Nat) : Runs σ Unit := if n ≤ depth then pure () else throw .overflow

def ofOperator (result : Except RuntimeError Value) : Runs σ Value :=
  match result with
  | .ok v => pure v
  | .error e => throw (.failed e)

/-- Repeat `body` while `condition` holds and no value is returned, at most `patience` times. -/
def repeatWhile (condition : Runs σ Bool) (body : Runs σ (Option Value)) :
    Nat → Runs σ (Option Value)
  | 0 => throw .outOfPatience
  | patience + 1 => do
    if ← condition then
      match ← body with
      | some v => return some v
      | none => repeatWhile condition body patience
    else return none

/-- Carry out what a native asks for. -/
def perform (clock : Runs σ Float) (call : Value → List Value → Runs σ Value)
    (run : Value → Runs σ Unit) : Action → Runs σ Value
  | .done v => return v
  | .fail f => throw (.fault f)
  | .readClock next => do perform clock call run (next (← clock))
  | .call callee arguments next => do perform clock call run (next (← call callee arguments))
  | .run source next => do
    run source
    perform clock call run next

/-- A stack overflow inside a call is an error at its closing parenthesis. -/
def inCall {α : Type} (paren : Token) (body : Runs σ α) : Runs σ α :=
  tryCatch body fun
    | .overflow => throw (.failed ⟨paren, .stackOverflow⟩)
    | stop => throw stop

/-- A stack overflow outside all calls is an error at the first line of its statement. -/
def atTop {α : Type} (line : Int) (body : Runs σ α) : Runs σ α :=
  tryCatch body fun
    | .overflow => throw (.failed ⟨.endAt line, .stackOverflow⟩)
    | stop => throw stop

/-- A runtime error ends a program and is reported. -/
def reporting (report : RuntimeError → Runs σ Unit) (body : Runs σ Unit) : Runs σ Unit :=
  tryCatch body fun
    | .failed e => report e
    | stop => throw stop

end Runs

theorem Eval.repeatWhile_eq (condition : Eval Bool) (body : Eval (Option Value)) (patience : Nat) :
    Eval.repeatWhile condition body patience = Runs.repeatWhile condition body patience := by
  induction patience with
  | zero => rfl
  | succ patience ih =>
    unfold Runs.repeatWhile
    rw [← ih]
    rfl

theorem Action.perform_eq (call : Value → List Value → Eval Value) (run : Value → Eval Unit)
    (action : Action) :
    action.perform call run = Runs.perform Eval.readClock call run action := by
  induction action with
  | done v => rfl
  | fail f => rfl
  | readClock next ih => exact congrArg (Eval.readClock >>= ·) (funext ih)
  | call callee arguments next ih => exact congrArg (call callee arguments >>= ·) (funext ih)
  | run source next ih => exact congrArg (run source >>= ·) (funext fun _ => ih)

theorem Eval.apply_of_lt {patience depth : Nat} {f : Value} {vs : List Value} {paren : Token}
    (h : depth < 7) : Eval.apply patience depth f vs paren = throw .overflow := by
  unfold Eval.apply
  split
  · omega
  · rfl

theorem Eval.invoke_of_lt {patience depth : Nat} {f : Value} {vs : List Value} (h : depth < 4) :
    Eval.invoke patience depth f vs = throw .overflow := by
  unfold Eval.invoke
  split
  · omega
  · rfl

end Scriptling
