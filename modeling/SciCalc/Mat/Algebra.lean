import SciCalc.Mat.Basic

/-!
# Matrix arithmetic

Sums, differences and products. Operands whose shapes do not fit are refused.
-/

namespace SciCalc.Mat

variable {R : Type} [Scalar R]

/-- Combines two matrices of one shape cell by cell. -/
def cellwise (operation : MatOperation) (f : R → R → R) (a b : Mat R) :
    Except (MatError R) (Mat R) :=
  if h : a.rows = b.rows ∧ a.cols = b.cols then
    .ok { a with
      cells := Cells.ofFn fun i j =>
        f (a.entry i j) (b.entry (i.cast h.1) (j.cast h.2)) }
  else .error (.dimension (.unequalShapes operation a.rows a.cols b.rows b.cols))

def add : Mat R → Mat R → Except (MatError R) (Mat R) :=
  cellwise .add (· + ·)

def subtract : Mat R → Mat R → Except (MatError R) (Mat R) :=
  cellwise .subtract (· - ·)

/-- The product; it needs as many rows on the right as there are columns on the left. -/
def multiply (a b : Mat R) : Except (MatError R) (Mat R) :=
  if h : a.cols = b.rows then
    .ok ⟨a.rows, b.cols,
      Cells.ofFn fun i j =>
        Scalar.sum a.cols fun k => a.entry i k * b.entry (k.cast h) j,
      a.rows_pos, b.cols_pos⟩
  else .error (.dimension (.innerSizes a.cols b.rows))

end SciCalc.Mat
