-- Binary floating-point numbers seen exactly: a finite number is a whole mantissa times a
-- power of two, and every ratio of whole numbers has a nearest such number.

namespace Scriptling.Number

/-! ## Taking a number apart -/

/-- What a 64-bit floating-point number stands for. A finite one is
`mantissa * 2 ^ exponent`, with a mantissa below `2 ^ 53`. -/
inductive Parts
  | notANumber
  | infinite (negative : Bool)
  | finite (negative : Bool) (mantissa : Nat) (exponent : Int)
  deriving DecidableEq, Repr

/-- The exponent of the smallest positive numbers. -/
def leastExponent : Int := -1074

/-- Two to the power `n`. -/
def twoTo (n : Nat) : Nat := Nat.pow 2 n

/-- Ten to the power `n`. -/
def tenTo (n : Nat) : Nat := Nat.pow 10 n

/-- The first mantissa that needs 53 bits. -/
def hiddenBit : Nat := twoTo 52

/-- The bit pattern of positive infinity. -/
def infinityBits : Nat := 0x7ff * hiddenBit

def parts (x : Float) : Parts :=
  let bits := x.toBits.toNat
  let negative := bits / twoTo 63 == 1
  let biased := bits / hiddenBit % twoTo 11
  let fraction := bits % hiddenBit
  if biased = 0x7ff then
    if fraction = 0 then .infinite negative else .notANumber
  else if biased = 0 then
    .finite negative fraction leastExponent
  else
    .finite negative (hiddenBit + fraction) (leastExponent + (biased - 1 : Nat))

/-! ## Rounding a ratio -/

/-- The whole number nearest to `num / den`; halfway cases go to the even one. -/
def roundDiv (num den : Nat) : Nat :=
  let q := num / den
  let twice := 2 * (num % den)
  if twice < den then q
  else if den < twice then q + 1
  else if q % 2 = 0 then q else q + 1

/-- A positive power of two, or its reciprocal, spread over a numerator and a denominator:
`num / den * 2 ^ (-e)`. -/
def unscale (num den : Nat) (e : Int) : Nat × Nat := (num * twoTo (-e).toNat, den * twoTo e.toNat)

/-- The exponent at which `num / den` has a 53-bit mantissa, or the least exponent where the
number is too small for that. -/
def exponentOf (num den : Nat) : Int :=
  let guess : Int := (num.log2 : Int) - den.log2 - 53
  let (n, d) := unscale num den guess
  max (if 2 * hiddenBit ≤ n / d then guess + 1 else guess) leastExponent

/-- The floating-point number nearest to `num / den`, halfway cases to the even mantissa;
infinite when it is too large. -/
def nearest (num den : Nat) : Float :=
  if num = 0 then Float.ofBits 0
  else
    let e := exponentOf num den
    let (n, d) := unscale num den e
    let bits := (e - leastExponent).toNat * hiddenBit + roundDiv n d
    Float.ofBits (UInt64.ofNat (min bits infinityBits))

/-! ## Reading decimals -/

def digitValue (c : Char) : Nat := c.toNat - '0'.toNat

/-- The whole number that a row of decimal digits writes. -/
def ofDigits (digits : List Char) : Nat := digits.foldl (fun n c => 10 * n + digitValue c) 0

/-- The number nearest to the decimal `whole.fraction`. -/
def ofDecimal (whole fraction : List Char) : Float :=
  nearest (ofDigits (whole ++ fraction)) (tenTo fraction.length)

end Scriptling.Number
