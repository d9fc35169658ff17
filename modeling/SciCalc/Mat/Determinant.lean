import SciCalc.Mat.Basic

/-!
# Determinant and inverse by cofactors

The determinant is expanded along the first row, the inverse is the adjugate divided
by the determinant. Both take time that grows with the factorial of the size and are
meant for matrices typed in by hand.
-/

namespace SciCalc

namespace Cells

variable {R : Type} [Scalar R]

/-- Expansion along the first row, with the signs alternating from the left. -/
def cofactorDet : {n : Nat} → Cells R n n → R
  | 0, _ => 1
  | 1, c => c.entry 0 0
  | 2, c => c.entry 0 0 * c.entry 1 1 - c.entry 0 1 * c.entry 1 0
  | n + 3, c =>
    Fin.foldl (n + 3)
      (fun det j =>
        det + Scalar.alternating j.val * c.entry 0 j *
          cofactorDet (n := n + 2) (c.minor 0 j)) 0

/-- The adjugate divided by a given determinant. -/
def adjugateOver (det : R) : {n : Nat} → Cells R n n → Cells R n n
  | 0, c => c
  | 1, _ => ofFn fun _ _ => 1 / det
  | _ + 2, c =>
    ofFn fun j i => Scalar.alternating (i.val + j.val) * cofactorDet (c.minor i j) / det

end Cells

namespace Mat

variable {R : Type} [Scalar R]

/-- Determinants below this size count as zero. -/
def singularTolerance : R :=
  Scalar.ratio 1 (Nat.pow 10 10)

def determinant (a : Mat R) : Except (MatError R) R :=
  if h : a.rows = a.cols then .ok (a.squareCells h).cofactorDet
  else .error (.dimension (.notSquare .determinant a.rows a.cols))

/-- The adjugate over the determinant; refused when the determinant is below the
tolerance. -/
def inverse (a : Mat R) : Except (MatError R) (Mat R) :=
  if h : a.rows = a.cols then
    let cells := a.squareCells h
    let det := cells.cofactorDet
    if Scalar.less (Scalar.abs det) singularTolerance then .error (.singular det)
    else .ok ⟨a.rows, a.rows, cells.adjugateOver det, a.rows_pos, a.rows_pos⟩
  else .error (.dimension (.notSquare .inverse a.rows a.cols))

end Mat

end SciCalc
