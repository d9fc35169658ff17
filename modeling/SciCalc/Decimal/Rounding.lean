import SciCalc.Decimal.Binary
import SciCalc.Decimal.Numeral

/-!
# Rounding on decimal grids

A positive fraction is rounded to the nearest multiple of a power of ten. A value
half-way between two multiples goes to the even one.
-/

namespace SciCalc.Decimal

/-- The number `coefficient * 10 ^ exponent`. -/
structure Scaled where
  coefficient : Nat
  exponent : Int
  deriving DecidableEq, Repr

/-- The whole number nearest to `num / den`, the even one of two. -/
def roundDiv (num den : Nat) : Nat :=
  let quotient := num / den
  let rest := num % den
  if 2 * rest < den then quotient
  else if den < 2 * rest then quotient + 1
  else if quotient % 2 = 0 then quotient
  else quotient + 1

/-- The exponent `e` of the leading digit, `10 ^ e ≤ num / den < 10 ^ (e + 1)`, of a
positive fraction. -/
def leadingExponent (num den : Nat) : Int :=
  if den ≤ num then (digitCount (num / den) : Int) - 1
  else -(digitCount ((den - 1) / num) : Int)

/-- The fraction measured in units of `10 ^ exponent`, again as a fraction. -/
def inUnits (num den : Nat) (exponent : Int) : Nat × Nat :=
  (num * Nat.pow 10 (-exponent).toNat, den * Nat.pow 10 exponent.toNat)

/-- The multiple of `10 ^ exponent` nearest to the fraction. -/
def roundToUnit (num den : Nat) (exponent : Int) : Nat :=
  let (top, bottom) := inUnits num den exponent
  roundDiv top bottom

/-- A positive fraction rounded to so many significant digits. When rounding carries
into a new decade the exponent moves up instead. -/
def roundToDigits (count num den : Nat) : Scaled :=
  let unit := leadingExponent num den - (count - 1 : Nat)
  let coefficient := roundToUnit num den unit
  if coefficient = Nat.pow 10 count then ⟨Nat.pow 10 (count - 1), unit + 1⟩
  else ⟨coefficient, unit⟩

end SciCalc.Decimal
