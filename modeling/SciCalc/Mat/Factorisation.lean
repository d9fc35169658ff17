import SciCalc.Mat.Determinant
import SciCalc.Mat.Pivot

/-!
# Triangular factorisation

Elimination with partial pivoting that keeps its multipliers: below the diagonal
they form a lower triangular factor with ones on its diagonal, on and above it the
upper triangular factor remains. The determinant is the product of the diagonal with
the sign of the row exchanges, and the inverse comes from solving against the
identity.
-/

namespace SciCalc

variable {R : Type} [Scalar R]

/-- Both factors in one square, and the exchanges of rows in the order they were
made. -/
structure Factorisation (R : Type) (n : Nat) where
  factors : Cells R n n
  swaps : List (Fin n × Fin n)

namespace Factorisation

variable {n : Nat}

/-- Scales the column below a pivot by its reciprocal and takes the multiples of the
pivot row from the rows below. -/
def clearBelow (cells : Cells R n n) (i : Fin n) : Cells R n n :=
  let reciprocal := 1 / cells.entry i i
  ⟨Vector.ofFn fun k =>
    if k ≤ i then cells.row k
    else
      let factor := cells.entry k i * reciprocal
      Vector.ofFn fun j =>
        if j < i then cells.entry k j
        else if j = i then factor
        else cells.entry k j - cells.entry i j * factor⟩

/-- One column. A column without a nonzero entry from the diagonal down is left as
it is. -/
def column (s : Factorisation R n) (i : Fin n) : Factorisation R n :=
  let p := Cells.pivotRow (fun k => s.factors.entry k i) i
  if Scalar.same (s.factors.entry p i) 0 then s
  else
    ⟨clearBelow (s.factors.swapRows i p) i,
      if p = i then s.swaps else s.swaps ++ [(i, p)]⟩

def ofCells (cells : Cells R n n) : Factorisation R n :=
  (List.finRange n).foldl column ⟨cells, []⟩

def determinant (s : Factorisation R n) : R :=
  Fin.foldl n (fun product i => product * s.factors.entry i i) 1 *
    Scalar.alternating s.swaps.length

/-- Solves with the lower factor: each value found is taken from the rows below it. -/
def forward (s : Factorisation R n) (b : Vector R n) : Vector R n :=
  (List.finRange n).foldl
    (fun x i => Vector.ofFn fun k =>
      if i < k then x.get k - x.get i * s.factors.entry k i else x.get k) b

/-- Solves with the upper factor from the last unknown upwards; a zero on the
diagonal stops it. -/
def backward? (s : Factorisation R n) (b : Vector R n) : Option (Vector R n) :=
  (List.finRange n).reverse.foldlM
    (fun x i =>
      if Scalar.same (s.factors.entry i i) 0 then none
      else
        let value := x.get i / s.factors.entry i i
        some (Vector.ofFn fun k =>
          if k < i then x.get k - value * s.factors.entry k i
          else if k = i then value
          else x.get k)) b

/-- The columns of the inverse: the rows of the identity are exchanged as those of
the matrix were, and both factors are solved for every column. -/
def inverse? (s : Factorisation R n) : Option (Cells R n n) :=
  let permuted :=
    s.swaps.foldl (fun c (p, q) => c.swapRows p q) (Cells.identity : Cells R n n)
  let columns := permuted.transpose.rows.toList.mapM fun b => s.backward? (s.forward b)
  columns.map fun cs => Cells.ofFn fun i j => (cs[j]?.map (·.get i)).getD 0

end Factorisation

namespace Mat

/-- The determinant by triangular factorisation. -/
def determinantLU (a : Mat R) : Except (MatError R) R :=
  if h : a.rows = a.cols then .ok (Factorisation.ofCells (a.squareCells h)).determinant
  else .error (.dimension (.notSquare .determinant a.rows a.cols))

/-- The inverse by triangular factorisation, refused under the same condition as the
adjugate inverse. -/
def inverseLU (a : Mat R) : Except (MatError R) (Mat R) :=
  if h : a.rows = a.cols then
    let s := Factorisation.ofCells (a.squareCells h)
    let det := s.determinant
    if Scalar.less (Scalar.abs det) singularTolerance then .error (.singular det)
    else
      match s.inverse? with
      | none => .error (.singular det)
      | some cells => .ok ⟨a.rows, a.rows, cells, a.rows_pos, a.rows_pos⟩
  else .error (.dimension (.notSquare .inverse a.rows a.cols))

end Mat

end SciCalc
