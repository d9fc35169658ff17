import SciCalc.Mat.Cells
import SciCalc.Mat.Error

/-!
# Matrices

A matrix is a rectangle of cells of any shape with at least one row and one column.
The constructors check the shape they are given; cells are reached by indices inside
the shape. A matrix has all cells of its shape, however large the shape is; the limits
that a list of cells is subject to are those of `RowMajor`.
-/

namespace SciCalc

structure Mat (R : Type) where
  rows : Nat
  cols : Nat
  cells : Cells R rows cols
  rows_pos : 0 < rows
  cols_pos : 0 < cols

namespace Mat

variable {R : Type}

def entry (a : Mat R) (i : Fin a.rows) (j : Fin a.cols) : R :=
  a.cells.entry i j

/-- The matrix of a shape with the given cells; an empty shape is refused in the
name of `operation`. -/
def build (operation : MatOperation) (rows cols : Nat) (f : Fin rows → Fin cols → R) :
    Except (MatError R) (Mat R) :=
  if h : 0 < rows ∧ 0 < cols then .ok ⟨rows, cols, Cells.ofFn f, h.1, h.2⟩
  else .error (.dimension (.emptyShape operation rows cols))

/-- Row by row, from left to right. -/
def toList (a : Mat R) : List R :=
  a.cells.toList

def toRows (a : Mat R) : List (List R) :=
  a.cells.toRows

/-- The row of an index, if there is one. -/
def row? (a : Mat R) (i : Nat) : Option (List R) :=
  if h : i < a.rows then some (a.cells.row ⟨i, h⟩).toList else none

def isSquare (a : Mat R) : Bool :=
  a.rows == a.cols

/-- The cells of a square matrix. -/
def squareCells (a : Mat R) (h : a.rows = a.cols) : Cells R a.rows a.rows :=
  Cells.ofFn fun i j => a.entry i (j.cast h)

def get? (a : Mat R) (i j : Nat) : Option R :=
  if h : i < a.rows ∧ j < a.cols then some (a.entry ⟨i, h.1⟩ ⟨j, h.2⟩) else none

def set (a : Mat R) (i j : Nat) (value : R) : Except (MatError R) (Mat R) :=
  if i < a.rows ∧ j < a.cols then
    .ok { a with
      cells := Cells.ofFn fun i' j' =>
        if i'.val = i ∧ j'.val = j then value else a.entry i' j' }
  else .error (.dimension (.outsideIndex a.rows a.cols i j))

/-- `t` has as cell `(j, i)` the cell `(i, j)` of the matrix. -/
def transpose (a : Mat R) : Mat R :=
  ⟨a.cols, a.rows, a.cells.transpose, a.cols_pos, a.rows_pos⟩

/-- The matrix without one row and one column. -/
def minor (a : Mat R) (row col : Nat) : Except (MatError R) (Mat R) :=
  match a with
  | ⟨m + 2, n + 2, cells, _, _⟩ =>
    if h : row < m + 2 ∧ col < n + 2 then
      .ok ⟨m + 1, n + 1, cells.minor ⟨row, h.1⟩ ⟨col, h.2⟩,
        Nat.succ_pos m, Nat.succ_pos n⟩
    else .error (.dimension (.noMinor (m + 2) (n + 2) row col))
  | a => .error (.dimension (.noMinor a.rows a.cols row col))

/-- The first row that is not as long as the first one, with its index. -/
def raggedRow? (cols : Nat) (rows : List (List R)) : Option (List R × Nat) :=
  rows.zipIdx.find? fun r => r.1.length != cols

variable [Scalar R]

def zeros (rows cols : Nat) : Except (MatError R) (Mat R) :=
  build .zeros rows cols fun _ _ => 0

def identity (n : Nat) : Except (MatError R) (Mat R) :=
  build .zeros n n fun i j => if i = j then 1 else 0

/-- The matrix with these rows, all of the length of the first one. -/
def ofRows (rows : List (List R)) : Except (MatError R) (Mat R) :=
  let cols := (rows.headD []).length
  match build .ofRows rows.length cols fun i j => (rows[i]).getD j 0 with
  | .error e => .error e
  | .ok a =>
    match raggedRow? cols rows with
    | some (row, i) => .error (.dimension (.raggedRow cols row.length i))
    | none => .ok a

/-- The matrix of a shape whose cells are given row after row. -/
def ofRowMajor (rows cols : Nat) (values : List R) : Except (MatError R) (Mat R) :=
  let values := values.toArray
  match build .ofRowMajor rows cols fun i j => values.getD (i * cols + j) 0 with
  | .error e => .error e
  | .ok a =>
    if values.size = rows * cols then .ok a
    else .error (.dimension (.valueCount (rows * cols) values.size))

/-- A matrix of another shape with the cells that both shapes share; the other cells
are zero. -/
def resized (a : Mat R) (rows cols : Nat) : Except (MatError R) (Mat R) :=
  build .zeros rows cols fun i j => (a.get? i j).getD 0

/-- Equality of shapes and of all cells, as scalars compare: a value that is not a
number equals nothing. -/
def same (a b : Mat R) : Bool :=
  a.rows == b.rows && a.cols == b.cols &&
    (a.toList.zip b.toList).all fun (x, y) => Scalar.same x y

end Mat

end SciCalc
