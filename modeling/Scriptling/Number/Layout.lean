-- How numbers are written. The digits are settled elsewhere; this module decides between
-- positional and scientific form and where the point stands.
import Scriptling.Number.Shortest

namespace Scriptling.Number

/-- The choices in writing a number. -/
structure Layout where
  /-- Write a whole number with all its digits and no point. -/
  wholeInFull : Bool
  /-- Decimal exponents from `lowest` up to below `limit` are written without an exponent. -/
  lowest : Int
  limit : Int
  /-- The least number of digits of a written exponent. -/
  exponentDigits : Nat

/-- Values are shown with whole numbers in full, small and large fractions with an exponent. -/
def Layout.display : Layout := ⟨true, -4, 16, 2⟩

/-- In a token listing a whole number keeps its point. -/
def Layout.listing : Layout := ⟨false, -4, 16, 2⟩

def zeros (n : Nat) : String := String.ofList (List.replicate n '0')

/-- Digits without trailing zeros, and how many zeros were dropped. -/
def trimZeros : Nat → Nat → Nat × Nat
  | 0, n => (n, 0)
  | fuel + 1, n =>
    if n ≠ 0 ∧ n % 10 = 0 then
      let (m, k) := trimZeros fuel (n / 10)
      (m, k + 1)
    else (n, 0)

/-- An exponent with its sign and at least `width` digits. -/
def exponentText (width : Nat) (e : Int) : String :=
  let digits := Nat.repr e.natAbs
  (if e < 0 then "e-" else "e+") ++ zeros (width - digits.length) ++ digits

/-- Write `digits * 10 ^ exponent`, where `digits` has no trailing zero. -/
def Layout.decimal (l : Layout) (digits : Nat) (exponent : Int) : String :=
  let text := Nat.repr digits
  let lead : Int := exponent + text.length - 1
  if l.lowest ≤ lead ∧ lead < l.limit then
    if lead < 0 then "0." ++ zeros (-lead - 1).toNat ++ text
    else
      let whole := (lead + 1).toNat
      if text.length ≤ whole then text ++ zeros (whole - text.length) ++ ".0"
      else
        let cs := text.toList
        String.ofList (cs.take whole) ++ "." ++ String.ofList (cs.drop whole)
  else
    match text.toList with
    | [] => ""
    | [c] => String.singleton c ++ exponentText l.exponentDigits lead
    | c :: rest =>
      String.singleton c ++ "." ++ String.ofList rest ++ exponentText l.exponentDigits lead

/-- The whole number `mantissa * 2 ^ exponent`, if it is one. -/
def whole? (mantissa : Nat) (exponent : Int) : Option Nat :=
  if 0 ≤ exponent then some (mantissa * twoTo exponent.toNat)
  else
    let unit := twoTo exponent.natAbs
    if mantissa % unit = 0 then some (mantissa / unit) else none

/-- Write a number of no sign. -/
def Layout.magnitude (l : Layout) (mantissa : Nat) (exponent : Int) : String :=
  match l.wholeInFull, whole? mantissa exponent with
  | true, some n => Nat.repr n
  | _, _ =>
    if mantissa = 0 then "0.0"
    else
      let d := shortest mantissa exponent
      let (digits, dropped) := trimZeros 17 d.digits
      l.decimal digits (d.exponent + dropped)

/-- Write a number. The sign of a zero is kept; not-a-number has none. -/
def Layout.write (l : Layout) (x : Float) : String :=
  match parts x with
  | .notANumber => "nan"
  | .infinite negative => (if negative then "-" else "") ++ "inf"
  | .finite negative mantissa exponent =>
    (if negative then "-" else "") ++ l.magnitude mantissa exponent

end Scriptling.Number
