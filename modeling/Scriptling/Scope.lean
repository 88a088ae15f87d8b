-- Scopes: which names are declared around a place in a program, and how far away. A block opens
-- a scope, and so does a function for its parameters and its body. Names outside all scopes are
-- global and are left alone here.
import Scriptling.Bindings
import Scriptling.Report

namespace Scriptling

/-- The names declared so far in one scope. A name is marked true once its initializer is
finished. -/
abbrev Scope := Bindings Bool

/-- The scopes around a place, the innermost first. -/
abbrev Scopes := List Scope

namespace Scopes

/-- How many scopes lie between a place and the innermost scope that declares `name`. -/
def distance? (scopes : Scopes) (name : String) : Option Nat :=
  scopes.findIdx? (·.binds name)

/-- The name is declared in the innermost scope, and its initializer is not finished. -/
def unfinished (scopes : Scopes) (name : String) : Bool :=
  match scopes with
  | [] => false
  | scope :: _ => scope.get? name == some false

/-- The name is declared in the innermost scope. -/
def declared (scopes : Scopes) (name : String) : Bool :=
  match scopes with
  | [] => false
  | scope :: _ => scope.binds name

/-- Note a name in the innermost scope. Outside all scopes nothing is noted. -/
def note (scopes : Scopes) (name : String) (finished : Bool) : Scopes :=
  match scopes with
  | [] => []
  | scope :: outer => scope.put name finished :: outer

end Scopes

end Scriptling
