-- Values: what expressions stand for while a program runs.

namespace Scriptling

/-- How a function or a native is known from outside. The `id` tells callables apart, and what
a callable does is kept elsewhere under it. -/
structure Callable where
  id : Nat
  name : String
  arity : Nat
  deriving DecidableEq, Repr

/-- A value. Programs make numbers; whole numbers come from the host only, and count as
numbers everywhere. -/
inductive Value
  | nil
  | bool (b : Bool)
  | number (x : Float)
  | integer (n : Int)
  | text (s : String)
  | function (c : Callable)
  | native (c : Callable)
  deriving DecidableEq

namespace Value

/-- The number that a value is, if it is one. A boolean is none. -/
def number? : Value → Option Float
  | number x => some x
  | integer n => some (Float.ofInt n)
  | _ => none

def isNumber (v : Value) : Bool := v.number?.isSome

def callable? : Value → Option Callable
  | function c | native c => some c
  | _ => none

/-- The name that the host has for a value's kind. -/
def hostKind : Value → String
  | nil => "NilType"
  | bool _ => "bool"
  | number _ => "float"
  | integer _ => "int"
  | text _ => "str"
  | function _ => "Function"
  | native _ => "NativeFunction"

/-- Only nil and false count as false. -/
def isTruthy : Value → Bool
  | nil => false
  | bool b => b
  | _ => true

/-- Values of different kinds differ. Numbers are compared as numbers, so not-a-number differs
from itself; callables are equal only if they are the same one. -/
def equals : Value → Value → Bool
  | nil, nil => true
  | bool a, bool b => a == b
  | text a, text b => a == b
  | integer a, integer b => a == b
  | function a, function b => a.id == b.id
  | native a, native b => a.id == b.id
  | a, b =>
    match a.number?, b.number? with
    | some x, some y => x == y
    | _, _ => false

end Value

end Scriptling
