import SciCalc.Decimal.Layout

/-!
# Range errors

Limits, counts and ranges that a numeric routine cannot work with.
-/

namespace SciCalc

inductive Axis where
  | x
  | y
  deriving DecidableEq, Repr

def Axis.label : Axis → String
  | x => "x"
  | y => "y"

inductive RangeError (R : Type) where
  /-- An integration limit is not finite. -/
  | limits (a b : R)
  /-- The number of subintervals is zero or odd. -/
  | subintervals (count : Nat)
  /-- The integrand has no finite value at a node. -/
  | integrand (x : R)
  /-- An end of a sampling range is not finite. -/
  | sampling (low high : R)
  /-- More functions than one plot can hold. -/
  | plotCount (limit got : Nat)
  /-- An axis of a plot is empty or not finite. -/
  | viewport (axis : Axis) (low high : R)
  /-- A reason given in words. -/
  | stated (reason : String)
  deriving DecidableEq, Repr

namespace RangeError

/-- The ends of a range as they are written in messages. -/
def pairText (low high : Float) : String :=
  "[" ++ Decimal.shortestPositional low ++ ", " ++
    Decimal.shortestPositional high ++ "]"

def reason : RangeError Float → String
  | limits a b => "integration limits must be finite numbers, got " ++ pairText a b
  | subintervals count =>
    "Simpson's rule needs an even, non-zero number of subintervals, got " ++
      toString count
  | integrand x => "integrand is not finite at x = " ++ Decimal.shortestPositional x
  | sampling low high => "sampling range must be finite, got " ++ pairText low high
  | plotCount limit got =>
    "at most " ++ toString limit ++ " functions can be plotted together, got " ++
      toString got
  | viewport axis low high =>
    axis.label ++ " range must be finite with min < max, got " ++ pairText low high
  | stated text => text

def message (e : RangeError Float) : String :=
  "invalid range: " ++ e.reason

end RangeError

end SciCalc
