import SciCalc.Mat.Basic
import SciCalc.Mat.Spectrum

/-!
# Diagnosis of linear systems

A system has a solution when its coefficients have the same rank with and without
the constants as a further column, and the solution is the only one when that rank
is the number of unknowns. Ranks are numerical: singular values up to a tolerance
count as zero. How far errors in the coefficients can grow in the solution is told
by the ratio of the largest to the smallest singular value.
-/

namespace SciCalc

inductive SystemKind where
  | unique
  | infinitelyMany
  | noSolution
  deriving DecidableEq, Repr

def SystemKind.label : SystemKind → String
  | unique => "unique solution"
  | infinitelyMany => "infinitely many solutions"
  | noSolution => "no solution"

namespace Cells

variable {R : Type} [SpectralScalar R] {m n : Nat}

def allFinite (c : Cells R m n) : Bool :=
  c.toList.all Scalar.isFinite

/-- The number of singular values above a tolerance. -/
def rank (tolerance : R) (c : Cells R m n) : Nat :=
  (SpectralScalar.singularValues c).countP fun value => Scalar.less tolerance value

/-- The cells with one more column. -/
def withColumn (c : Cells R m n) (column : Fin m → R) : Cells R m (n + 1) :=
  Cells.ofFn fun i j => if h : j.val < n then c.entry i ⟨j.val, h⟩ else column i

end Cells

namespace Mat

variable {R : Type} [SpectralScalar R]

/-- Singular values up to `1 / 10 ^ 10` of the largest cell, or of one if all cells
are smaller, count as zero. -/
def rankTolerance {m n : Nat} (c : Cells R m n) : R :=
  Scalar.ratio 1 (Nat.pow 10 10) * Scalar.larger (Spectrum.largest c) 1

/-- The kind of a system by its ranks. A system with a cell that is not finite, or
with the wrong number of constants, has none. -/
def classify (a : Mat R) (constants : List R) : Option SystemKind :=
  if h : a.rows = constants.length then
    let augmented := a.cells.withColumn fun i => constants.get (i.cast h)
    if augmented.allFinite then
      let tolerance := rankTolerance augmented
      let rank := a.cells.rank tolerance
      if rank ≠ augmented.rank tolerance then some .noSolution
      else if rank < a.cols then some .infinitelyMany
      else some .unique
    else none
  else none

/-- The largest singular value over the smallest; none when a cell is not finite. -/
def conditionNumber (a : Mat R) : Option R :=
  if a.cells.allFinite then
    match SpectralScalar.singularValues a.cells with
    | [] => none
    | first :: rest =>
      some (rest.foldl Scalar.larger first /
        rest.foldl (fun least x => if Scalar.less x least then x else least) first)
  else none

/-- The condition number exceeds a threshold. -/
def poorlyConditioned (a : Mat R) (threshold : R) : Bool :=
  (conditionNumber a).any (Scalar.less threshold)

end Mat

end SciCalc
