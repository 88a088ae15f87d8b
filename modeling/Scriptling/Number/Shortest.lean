-- Shortest decimals: of all decimals that read back as a given number, one with the fewest
-- digits, and of those the nearest. Everything is exact arithmetic on whole numbers.
import Scriptling.Number.Binary

namespace Scriptling.Number

/-- The decimal `digits * 10 ^ exponent`. -/
structure Decimal where
  digits : Nat
  exponent : Int
  deriving DecidableEq, Repr

/-- The reals that round to one number, as whole multiples of a quarter of its last place:
from `low` to `high` around `middle`, the ends included when `closed`. -/
structure Neighbourhood where
  low : Nat
  middle : Nat
  high : Nat
  closed : Bool
  exponent : Int
  deriving Repr

/-- Just above a power of two the numbers below are twice as dense as those above. -/
def neighbourhood (mantissa : Nat) (exponent : Int) : Neighbourhood where
  low := 4 * mantissa - (if mantissa = hiddenBit ∧ leastExponent < exponent then 1 else 2)
  middle := 4 * mantissa
  high := 4 * mantissa + 2
  closed := mantissa % 2 = 0
  exponent := exponent - 2

/-- A neighbourhood on the decimal grid of step `10 ^ step`: its points are `n / unit` grid
steps for the numerators `n`. -/
structure Grid where
  low : Nat
  middle : Nat
  high : Nat
  closed : Bool
  unit : Nat
  deriving Repr

def Neighbourhood.onGrid (b : Neighbourhood) (step : Int) : Grid :=
  let up := twoTo b.exponent.toNat * tenTo (-step).toNat
  { low := b.low * up
    middle := b.middle * up
    high := b.high * up
    closed := b.closed
    unit := twoTo (-b.exponent).toNat * tenTo step.toNat }

/-- The grid point `n` reads back as the number. -/
def Grid.holds (g : Grid) (n : Nat) : Bool :=
  if g.closed then g.low ≤ n * g.unit && n * g.unit ≤ g.high
  else g.low < n * g.unit && n * g.unit < g.high

/-- The nearest grid point that reads back, if one does. It is one of the two around the
number; a tie goes to the even one. -/
def Grid.hit? (g : Grid) : Option Nat :=
  let below := g.middle / g.unit
  let above := below + 1
  let toBelow := g.middle - below * g.unit
  let toAbove := above * g.unit - g.middle
  match g.holds below, g.holds above with
  | true, true =>
    if toBelow < toAbove then some below
    else if toAbove < toBelow then some above
    else some (if below % 2 = 0 then below else above)
  | true, false => some below
  | false, true => some above
  | false, false => none

/-- The decimal exponent of the leading digit of `mantissa * 2 ^ exponent`, for a positive
number that a `Float` can hold: none of them is below `10 ^ (-340)`. -/
def leadingExponent (mantissa : Nat) (exponent : Int) : Int :=
  let scaled := mantissa * twoTo exponent.toNat * tenTo 340 / twoTo (-exponent).toNat
  ((Nat.repr scaled).length : Int) - 341

/-- The search tries one digit more each time. Seventeen are always enough. -/
def shortestFrom (b : Neighbourhood) (lead : Int) : Nat → Nat → Decimal
  | 0, tried => ⟨b.middle, lead - tried⟩
  | more + 1, tried =>
    let step := lead - tried
    match (b.onGrid step).hit? with
    | some n => ⟨n, step⟩
    | none => shortestFrom b lead more (tried + 1)

/-- The shortest decimal that reads back as the positive number `mantissa * 2 ^ exponent`. -/
def shortest (mantissa : Nat) (exponent : Int) : Decimal :=
  shortestFrom (neighbourhood mantissa exponent) (leadingExponent mantissa exponent) 17 0

end Scriptling.Number
