import SciCalc.Mat.Cells

/-!
# Partial pivoting

The pivot of a column is the entry of largest absolute value from a given row down,
the first of several.
-/

namespace SciCalc.Cells

variable {R : Type} [Scalar R] {m n : Nat}

/-- Keeps the better of two rows for a column: the later one has to be strictly
larger. -/
def betterRow (column : Fin m → R) (best k : Fin m) : Fin m :=
  if Scalar.less (Scalar.abs (column best)) (Scalar.abs (column k)) then k else best

/-- The row of the pivot among row `first` and the rows below it. -/
def pivotRow (column : Fin m → R) (first : Fin m) : Fin m :=
  ((List.finRange m).filter fun k => first < k).foldl (betterRow column) first

end SciCalc.Cells
