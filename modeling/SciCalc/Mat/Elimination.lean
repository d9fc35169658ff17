import SciCalc.Mat.Basic
import SciCalc.Mat.Pivot

/-!
# Linear systems

`n` equations in `n` unknowns are solved by elimination with partial pivoting and
back substitution. The rows carry their constant as a last cell. A pivot below the
tolerance means that there is no unique solution, and stops the elimination.
-/

namespace SciCalc

variable {R : Type} [Scalar R]

/-- An elimination in progress: the rows as they stand, and the exchanges of rows
made so far. -/
structure Elimination (R : Type) (n : Nat) where
  rows : Cells R n (n + 1)
  swaps : List (Fin n × Fin n)

namespace Elimination

variable {n : Nat}

/-- Pivots below this size count as zero. -/
def pivotTolerance : R :=
  Scalar.ratio 1 (Nat.pow 10 10)

/-- The coefficients with the constants as a last column. -/
def augment (coefficients : Cells R n n) (constants : Fin n → R) : Cells R n (n + 1) :=
  Cells.ofFn fun i j =>
    if h : j.val < n then coefficients.entry i ⟨j.val, h⟩ else constants i

def start (coefficients : Cells R n n) (constants : Fin n → R) : Elimination R n :=
  ⟨augment coefficients constants, []⟩

/-- What row `k` has to be reduced by, in multiples of row `i`. -/
def multiplier (rows : Cells R n (n + 1)) (i k : Fin n) : R :=
  rows.entry k i.castSucc / rows.entry i i.castSucc

/-- Clears column `i` below row `i`. A row whose multiplier is zero stays as it is,
and so do the cells to the left of the column. -/
def clearBelow (rows : Cells R n (n + 1)) (i : Fin n) : Cells R n (n + 1) :=
  ⟨Vector.ofFn fun k =>
    if k ≤ i then rows.row k
    else
      let factor := multiplier rows i k
      if Scalar.same factor 0 then rows.row k
      else Vector.ofFn fun j =>
        if j < i.castSucc then rows.entry k j
        else rows.entry k j - factor * rows.entry i j⟩

/-- An elimination that came to a stop: below and on the diagonal of `column` no
entry is large enough to be a pivot. -/
structure Stop (R : Type) (n : Nat) where
  state : Elimination R n
  column : Fin n

/-- The entry that should have been the pivot. -/
def Stop.pivot (s : Stop R n) : R :=
  s.state.rows.entry s.column s.column.castSucc

/-- Brings the row of the pivot up. An exchange of a row with itself is not counted. -/
def raisePivot (s : Elimination R n) (i : Fin n) : Elimination R n :=
  let p := Cells.pivotRow (fun k => s.rows.entry k i.castSucc) i
  ⟨s.rows.swapRows i p, if p = i then s.swaps else s.swaps ++ [(i, p)]⟩

/-- One column: bring the pivot up, and clear the column below it. A pivot that is
too small stops the elimination. -/
def column (s : Elimination R n) (i : Fin n) : Except (Stop R n) (Elimination R n) :=
  let s := s.raisePivot i
  if Scalar.less (Scalar.abs (s.rows.entry i i.castSucc)) pivotTolerance then
    .error ⟨s, i⟩
  else .ok { s with rows := clearBelow s.rows i }

/-- The columns in turn. -/
def columns (s : Elimination R n) : List (Fin n) → Except (Stop R n) (Elimination R n)
  | [] => .ok s
  | i :: rest => do
    let s ← s.column i
    s.columns rest

/-- Forward elimination of the whole system. -/
def run (coefficients : Cells R n n) (constants : Fin n → R) :
    Except (Stop R n) (Elimination R n) :=
  (start coefficients constants).columns (List.finRange n)

/-- The value of unknown `i` when the unknowns behind it have the values `x`. -/
def unknown (rows : Cells R n (n + 1)) (x : Vector R n) (i : Fin n) : R :=
  ((List.finRange n).filter fun j => i < j).foldl
    (fun sum j => sum - rows.entry i j.castSucc * x.get j) (rows.entry i (Fin.last n))
  / rows.entry i i.castSucc

/-- The unknowns from the last one upwards. -/
def backSubstitute (rows : Cells R n (n + 1)) : Vector R n :=
  (List.finRange n).reverse.foldl
    (fun x (i : Fin n) =>
      Vector.ofFn fun k => if k = i then unknown rows x i else x.get k)
    (Vector.replicate n 0)

end Elimination

/-- The solution of `coefficients * x = constants`. -/
def Mat.solve (coefficients : Mat R) (constants : List R) :
    Except (MatError R) (List R) :=
  if h : coefficients.rows = coefficients.cols then
    if hc : constants.length = coefficients.rows then
      match Elimination.run (coefficients.squareCells h) fun i =>
        constants[i.cast hc.symm] with
      | .error stop => .error (.singular stop.pivot)
      | .ok s => .ok (Elimination.backSubstitute s.rows).toList
    else .error (.dimension (.constantCount coefficients.rows constants.length))
  else .error (.dimension (.notSquare .solve coefficients.rows coefficients.cols))

end SciCalc
