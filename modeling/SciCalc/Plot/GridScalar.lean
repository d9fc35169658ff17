import SciCalc.Decimal.Rounding
import SciCalc.Scalar

/-!
# Scalars for plot grids

What finding the lines of a grid needs besides arithmetic: whole numbers, and the
power of ten at the head of a scalar. Rounding to a whole number stops at the ends
of the 64-bit range.
-/

namespace SciCalc

class GridScalar (R : Type) extends Scalar R where
  ofInt : Int → R
  floor64 : R → Int
  ceil64 : R → Int
  /-- the largest power of ten that is not above a positive scalar -/
  decade : R → R

/-- The exponent of the decade is read off the rounded logarithm. -/
instance : GridScalar Float where
  ofInt := Float.ofInt
  floor64 x := x.floor.toInt64.toInt
  ceil64 x := x.ceil.toInt64.toInt
  decade x := Float.pow 10 x.log10.floor

/-- The nearest whole number in the 64-bit range. -/
def clamp64 (k : Int) : Int :=
  max (-(Nat.pow 2 63 : Nat)) (min ((Nat.pow 2 63 : Nat) - 1) k)

/-- A power of ten with an exponent of either sign. -/
def ratPowerOfTen (exponent : Int) : Rat :=
  (Nat.pow 10 exponent.toNat : Rat) / (Nat.pow 10 (-exponent).toNat : Rat)

instance : GridScalar Rat where
  ofInt k := (k : Rat)
  floor64 q := clamp64 q.floor
  ceil64 q := clamp64 q.ceil
  decade q := ratPowerOfTen (Decimal.leadingExponent q.num.natAbs q.den)

end SciCalc
