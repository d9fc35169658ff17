import SciCalc.Scalar

/-!
# Evenly spaced values

`n` values from `start` to `stop`, both included. The last one is `stop` itself,
free of rounding.
-/

namespace SciCalc

variable {R : Type} [Scalar R]

/-- The distance between two of `n` values. -/
def linstep (start stop : R) (n : Nat) : R :=
  (stop - start) / Scalar.ofNat (n - 1)

def linspace (start stop : R) : Nat → List R
  | 0 => []
  | 1 => [start]
  | n => (List.range n).map fun i =>
    if i = n - 1 then stop else start + Scalar.ofNat i * linstep start stop n

end SciCalc
