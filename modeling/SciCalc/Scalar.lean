/-!
# Scalars

Matrices, elimination, quadrature and plot grids are written once over the small
signature below. In a running calculator the scalars are binary floating-point
numbers; the same definitions read over exact rationals are the ones that algebra
speaks of. The signature asks for no law of arithmetic, so a definition over it
commits to an order of operations and to nothing else.
-/

namespace SciCalc

/-- The operations a numeric routine may use. Comparisons are Boolean and may all
fail, as they do for a value that is not a number. -/
class Scalar (R : Type) extends Zero R, One R, Add R, Sub R, Mul R, Div R, Neg R where
  ofNat : Nat → R
  abs : R → R
  less : R → R → Bool
  same : R → R → Bool
  isFinite : R → Bool

namespace Scalar

variable {R : Type} [Scalar R]

/-- The quotient of two whole numbers. In floating point it is the number nearest to
the fraction, as long as both whole numbers are exact. -/
def ratio (p q : Nat) : R :=
  ofNat p / ofNat q

/-- `1` at even places and `-1` at odd ones. -/
def alternating (place : Nat) : R :=
  if place % 2 = 0 then 1 else -1

/-- The terms `f 0, f 1, …` added one after the other, starting from zero. -/
def sum (n : Nat) (f : Fin n → R) : R :=
  Fin.foldl n (fun total k => total + f k) 0

/-- The larger of two scalars; the first one when they do not compare. -/
def larger (a b : R) : R :=
  if less a b then b else a

end Scalar

instance : Scalar Float where
  ofNat := Float.ofNat
  abs := Float.abs
  less a b := decide (a < b)
  same a b := a == b
  isFinite := Float.isFinite

instance : Scalar Rat where
  zero := 0
  one := 1
  ofNat n := (n : Rat)
  abs q := if q < 0 then -q else q
  less a b := decide (a < b)
  same a b := decide (a = b)
  isFinite _ := true

end SciCalc
