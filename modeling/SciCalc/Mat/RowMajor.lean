import SciCalc.Mat.ColumnMajor
import SciCalc.Mat.Session

/-!
# Row-major storage

The cells of a matrix one row after the other, in a list that nothing ties to the
shape. Every access to a cell is checked against the shape and against the list, and
an access outside of either ends the calculation. The operations on matrices are
loops over places of cells here.

Sizes and places are calculated modulo `2 ^ 64`, and a list has room for so many
cells only. So a shape that is too large gets a list of fewer cells than it has
places, or no list at all. A matrix, in contrast, has all cells of its shape, and
the operations on matrices know no largest shape.
-/

namespace SciCalc

/-- A shape and a list of cells; cell `(i, j)` is stored at place `i * cols + j`. -/
structure RowMajor (R : Type) where
  rows : Nat
  cols : Nat
  data : List R

/-- Why a calculation on stored cells has no result. -/
inductive StorageFault (R : Type) where
  /-- There is no cell at a place that is accessed. -/
  | outOfRange
  /-- There is no list of so many cells. -/
  | tooLarge
  /-- The operation reports an error; nothing else does. -/
  | refused (cause : MatError R)

/-- The cells of a rectangle row after row. -/
def Cells.store {R : Type} {m n : Nat} (c : Cells R m n) : RowMajor R :=
  ⟨m, n, c.toList⟩

def Mat.store {R : Type} (a : Mat R) : RowMajor R :=
  a.cells.store

/-- The cell `(i, j)` in a storage by columns. -/
def ColumnMajor.read {R : Type} (c : ColumnMajor R) (i j : Nat) :
    Except (StorageFault R) R :=
  if i < c.rows ∧ j < c.cols then
    match c.toList[j * c.rows + i]? with
    | some value => .ok value
    | none => .error .outOfRange
  else .error .outOfRange

namespace RowMajor

variable {R : Type}

/-! ### Sizes and places -/

/-- The most cells a list can hold: `2 ^ 63 - 1` bytes of memory, and eight bytes for
every cell. -/
def capacity : Nat := (Nat.pow 2 63 - 1) / 8

/-- The shape has no more places than a list has room for. -/
def Storable (rows cols : Nat) : Prop :=
  rows * cols ≤ capacity

instance (rows cols : Nat) : Decidable (Storable rows cols) :=
  inferInstanceAs (Decidable (rows * cols ≤ capacity))

/-- A number as it is calculated beside a list of the given length. Lists are shorter
than `2 ^ 64`, so that the numbers up to their length are exact. -/
def wrap (length n : Nat) : Nat :=
  if n ≤ length then n else n % Nat.pow 2 64

/-- Makes room for a list of the given length. -/
def reserve (cells : Nat) : Except (StorageFault R) Unit :=
  if capacity < cells then .error .tooLarge else .ok ()

/-- Where the cell `(i, j)` is looked for. -/
def place (s : RowMajor R) (i j : Nat) : Nat :=
  wrap s.data.length (i * s.cols + j)

/-! ### Cells -/

def read (s : RowMajor R) (i j : Nat) : Except (StorageFault R) R :=
  if i < s.rows ∧ j < s.cols then
    match s.data[s.place i j]? with
    | some value => .ok value
    | none => .error .outOfRange
  else .error .outOfRange

def write (s : RowMajor R) (i j : Nat) (value : R) :
    Except (StorageFault R) (RowMajor R) :=
  if i < s.rows ∧ j < s.cols ∧ s.place i j < s.data.length then
    .ok { s with data := s.data.set (s.place i j) value }
  else .error .outOfRange

/-! ### Making and editing -/

def refuse {α : Type} (cause : DimensionMismatch) : Except (StorageFault R) α :=
  .error (.refused (.dimension cause))

def checkShape (operation : MatOperation) (rows cols : Nat) :
    Except (StorageFault R) Unit :=
  if rows = 0 ∨ cols = 0 then refuse (.emptyShape operation rows cols) else .ok ()

/-- The places in the given rows and columns, row after row. -/
def places (rows cols : List Nat) : List (Nat × Nat) :=
  rows.flatMap fun i => cols.map fun j => (i, j)

/-- All places of a shape. -/
def grid (rows cols : Nat) : List (Nat × Nat) :=
  places (List.range rows) (List.range cols)

/-- Writes a value to one place after the other. -/
def fill (s : RowMajor R) (targets : List (Nat × Nat))
    (value : Nat × Nat → Except (StorageFault R) R) :
    Except (StorageFault R) (RowMajor R) :=
  targets.foldlM (fun s place => do s.write place.1 place.2 (← value place)) s

def ofRowMajor (rows cols : Nat) (values : List R) :
    Except (StorageFault R) (RowMajor R) := do
  checkShape .ofRowMajor rows cols
  let cells := wrap values.length (rows * cols)
  if values.length = cells then return ⟨rows, cols, values⟩
  else refuse (.valueCount cells values.length)

/-- A row of the given length behind the cells that are there; it is numbered for the
error that refuses it. -/
def appendRow (cols : Nat) (data : List R) (row : List R × Nat) :
    Except (StorageFault R) (List R) :=
  if row.1.length = cols then do
    reserve (data.length + row.1.length)
    return data ++ row.1
  else refuse (.raggedRow cols row.1.length row.2)

/-- The rows one behind the other, up to the first that is not of the given length. -/
def extend (cols : Nat) (rows : List (List R)) : Except (StorageFault R) (List R) :=
  rows.zipIdx.foldlM (appendRow cols) []

def ofRows (rows : List (List R)) : Except (StorageFault R) (RowMajor R) := do
  let cols := (rows.headD []).length
  checkShape .ofRows rows.length cols
  -- more than the cells there are, if the rows behind the first are shorter
  reserve (wrap 0 (rows.length * cols))
  return ⟨rows.length, cols, ← extend cols rows⟩

def ofColumnMajor (c : ColumnMajor R) : Except (StorageFault R) (RowMajor R) := do
  checkShape .ofColumnMajor c.rows c.cols
  reserve (c.rows * c.cols)
  let data ← (grid c.rows c.cols).mapM fun place => c.read place.1 place.2
  return ⟨c.rows, c.cols, data⟩

/-- The cells from where a row starts to where the next one does. -/
def row (s : RowMajor R) (i : Nat) : Except (StorageFault R) (List R) :=
  let start := wrap s.data.length (i * s.cols)
  let stop := wrap s.data.length ((i + 1) * s.cols)
  if start ≤ stop ∧ stop ≤ s.data.length then
    .ok ((s.data.drop start).take (stop - start))
  else .error .outOfRange

def toRows (s : RowMajor R) : Except (StorageFault R) (List (List R)) :=
  (List.range s.rows).mapM s.row

/-- The cells column after column; the place of each is that of its value in the
list. -/
def toColumnMajor (s : RowMajor R) : Except (StorageFault R) (ColumnMajor R) :=
  if h : s.data.length = s.cols * s.rows then
    .ok ⟨s.rows, s.cols, Vector.ofFn fun place =>
      s.data.get ⟨place.val % s.rows * s.cols + place.val / s.rows, h ▸
        ColumnMajor.place_lt ⟨_, col_of_place_lt place⟩
          ⟨_, row_of_place_lt place⟩⟩⟩
  else .error .outOfRange

def set (s : RowMajor R) (i j : Nat) (value : R) :
    Except (StorageFault R) (RowMajor R) :=
  if i < s.rows ∧ j < s.cols then s.write i j value
  else refuse (.outsideIndex s.rows s.cols i j)

/-- There is room for as many cells as are read here: they are in a list already. -/
def transpose (s : RowMajor R) : Except (StorageFault R) (RowMajor R) := do
  let data ← (grid s.cols s.rows).mapM fun place => s.read place.2 place.1
  return ⟨s.cols, s.rows, data⟩

def minor (s : RowMajor R) (row col : Nat) : Except (StorageFault R) (RowMajor R) :=
  if s.rows < 2 ∨ s.cols < 2 ∨ s.rows ≤ row ∨ s.cols ≤ col then
    refuse (.noMinor s.rows s.cols row col)
  else do
    let kept := places ((List.range s.rows).filter (· != row))
      ((List.range s.cols).filter (· != col))
    let values ← kept.mapM fun place => s.read place.1 place.2
    ofRowMajor (s.rows - 1) (s.cols - 1) values

/-- The lists of cells are combined as far as both of them reach. -/
def cellwise (operation : MatOperation) (f : R → R → R) (s t : RowMajor R) :
    Except (StorageFault R) (RowMajor R) :=
  if s.rows = t.rows ∧ s.cols = t.cols then
    ofRowMajor s.rows s.cols (List.zipWith f s.data t.data)
  else refuse (.unequalShapes operation s.rows s.cols t.rows t.cols)

variable [Scalar R]

def zeros (rows cols : Nat) : Except (StorageFault R) (RowMajor R) := do
  checkShape .zeros rows cols
  let cells := wrap 0 (rows * cols)
  reserve cells
  return ⟨rows, cols, List.replicate cells 0⟩

def identity (n : Nat) : Except (StorageFault R) (RowMajor R) := do
  let s ← zeros n n
  s.fill ((List.range n).map fun i => (i, i)) fun _ => .ok 1

def resized (s : RowMajor R) (rows cols : Nat) :
    Except (StorageFault R) (RowMajor R) := do
  let t ← zeros rows cols
  t.fill (grid (min rows s.rows) (min cols s.cols)) fun place =>
    s.read place.1 place.2

def multiply (s t : RowMajor R) : Except (StorageFault R) (RowMajor R) :=
  if s.cols = t.rows then do
    let product ← zeros s.rows t.cols
    product.fill (grid s.rows t.cols) fun place =>
      (List.range s.cols).foldlM
        (fun sum k => do return sum + (← s.read place.1 k) * (← t.read k place.2)) 0
  else refuse (.innerSizes s.cols t.rows)

/-- Expansion along the first row of as many rows as the first argument says. -/
def cofactorDet : Nat → RowMajor R → Except (StorageFault R) R
  | 0, _ => .ok 0
  | 1, s => s.read 0 0
  | 2, s => do
    return (← s.read 0 0) * (← s.read 1 1) - (← s.read 0 1) * (← s.read 1 0)
  | n + 3, s =>
    (List.range (n + 3)).foldlM
      (fun det j => do
        return det + Scalar.alternating j * (← s.read 0 j) *
          (← cofactorDet (n + 2) (← s.minor 0 j))) 0

def inverse (s : RowMajor R) : Except (StorageFault R) (RowMajor R) :=
  if s.rows = s.cols then do
    let det ← cofactorDet s.rows s
    if Scalar.less (Scalar.abs det) Mat.singularTolerance then
      .error (.refused (.singular det))
    else if s.rows = 1 then ofRowMajor 1 1 [1 / det]
    else
      let t ← zeros s.rows s.rows
      t.fill ((grid s.rows s.rows).map Prod.swap) fun place => do
        let minor ← s.minor place.2 place.1
        return Scalar.alternating (place.2 + place.1) *
          (← cofactorDet minor.rows minor) / det
  else refuse (.notSquare .inverse s.rows s.cols)

/-- What an editing step makes of stored cells. -/
def edit (s : RowMajor R) : MatEdit R → Except (StorageFault R) (RowMajor R)
  | .set i j value => s.set i j value
  | .resize rows cols => s.resized rows cols
  | .transpose => s.transpose
  | .minor row col => s.minor row col
  | .add right => cellwise .add (· + ·) s right.store
  | .subtract right => cellwise .subtract (· - ·) s right.store
  | .multiply right => s.multiply right.store
  | .square => s.multiply s
  | .inverse => s.inverse

/-- The cells behind a step: a step that is refused leaves them, any other fault is
the end. -/
def after (s : RowMajor R) (e : MatEdit R) : Except (StorageFault R) (RowMajor R) :=
  match s.edit e with
  | .error (.refused _) => .ok s
  | result => result

def run (s : RowMajor R) (steps : List (MatEdit R)) :
    Except (StorageFault R) (RowMajor R) :=
  steps.foldlM after s

end RowMajor

/-- The ways to make a matrix. -/
inductive MatSource (R : Type) where
  | zeros (rows cols : Nat)
  | identity (n : Nat)
  | ofRows (rows : List (List R))
  | ofRowMajor (rows cols : Nat) (values : List R)
  | ofColumnMajor (c : ColumnMajor R)

namespace MatSource

variable {R : Type} [Scalar R]

def build : MatSource R → Except (MatError R) (Mat R)
  | zeros rows cols => Mat.zeros rows cols
  | identity n => Mat.identity n
  | ofRows rows => Mat.ofRows rows
  | ofRowMajor rows cols values => Mat.ofRowMajor rows cols values
  | ofColumnMajor c => c.toMat

/-- The stored cells that are made. -/
def store : MatSource R → Except (StorageFault R) (RowMajor R)
  | zeros rows cols => RowMajor.zeros rows cols
  | identity n => RowMajor.identity n
  | ofRows rows => RowMajor.ofRows rows
  | ofRowMajor rows cols values => RowMajor.ofRowMajor rows cols values
  | ofColumnMajor c => RowMajor.ofColumnMajor c

end MatSource

end SciCalc
