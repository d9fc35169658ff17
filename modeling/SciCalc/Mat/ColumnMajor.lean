import SciCalc.Mat.Basic

/-!
# Column-major storage

The cells of a rectangle one column after the other. A rectangle in this layout may
be empty, a matrix may not, so only the way back can fail.
-/

namespace SciCalc

/-- A rectangle whose cell `(i, j)` is stored at place `j * rows + i`. -/
structure ColumnMajor (R : Type) where
  rows : Nat
  cols : Nat
  values : Vector R (rows * cols)

namespace ColumnMajor

variable {R : Type}

/-- The place of a cell lies inside the storage. -/
theorem place_lt {rows cols : Nat} (i : Fin rows) (j : Fin cols) :
    j.val * rows + i.val < rows * cols :=
  calc
    j.val * rows + i.val < j.val * rows + rows := Nat.add_lt_add_left i.isLt _
    _ = (j.val + 1) * rows := (Nat.succ_mul _ _).symm
    _ ≤ cols * rows := Nat.mul_le_mul_right _ j.isLt
    _ = rows * cols := Nat.mul_comm _ _

def entry (c : ColumnMajor R) (i : Fin c.rows) (j : Fin c.cols) : R :=
  c.values.get ⟨j.val * c.rows + i.val, place_lt i j⟩

/-- The cells in the order they are stored. -/
def toList (c : ColumnMajor R) : List R :=
  c.values.toList

/-- A rectangle of zeros of any shape. -/
def zeros [Scalar R] (rows cols : Nat) : ColumnMajor R :=
  ⟨rows, cols, Vector.replicate _ 0⟩

/-- The matrix with these cells; an empty rectangle is refused. -/
def toMat (c : ColumnMajor R) : Except (MatError R) (Mat R) :=
  Mat.build .ofColumnMajor c.rows c.cols c.entry

end ColumnMajor

/-- The column of a place and the row of a place lie inside the shape. -/
theorem row_of_place_lt {rows cols : Nat} (place : Fin (rows * cols)) :
    place.val % rows < rows :=
  Nat.mod_lt _ (Nat.pos_of_mul_pos_right (Nat.zero_lt_of_lt place.isLt))

theorem col_of_place_lt {rows cols : Nat} (place : Fin (rows * cols)) :
    place.val / rows < cols :=
  Nat.div_lt_of_lt_mul place.isLt

/-- The cells of a matrix column after column. -/
def Mat.toColumnMajor {R : Type} (a : Mat R) : ColumnMajor R :=
  ⟨a.rows, a.cols, Vector.ofFn fun place =>
    a.entry ⟨place.val % a.rows, row_of_place_lt place⟩
      ⟨place.val / a.rows, col_of_place_lt place⟩⟩

end SciCalc
