import SciCalc.Mat.Cells

/-!
# Singular values

A rectangle is turned, two rows at a time, until all its rows are orthogonal.
Turning two rows in their plane keeps the singular values, and the singular values
of orthogonal rows are their lengths.
-/

namespace SciCalc

/-- Scalars over which rectangles have singular values, as many as the shorter side
of the rectangle is long. -/
class SpectralScalar (R : Type) extends Scalar R where
  singularValues : {m n : Nat} → Cells R m n → List R

namespace Spectrum

variable {m n : Nat}

def dot (u v : Vector Float n) : Float :=
  Scalar.sum n fun k => u.get k * v.get k

/-- The combination `a * u + b * v`. -/
def combine (a b : Float) (u v : Vector Float n) : Vector Float n :=
  Vector.ofFn fun k => a * u.get k + b * v.get k

/-- Turns two rows so that they become orthogonal. The tangent of the angle is the
smaller root of `t ^ 2 + 2 * cot * t = 1`. -/
def turn (u v : Vector Float n) : Vector Float n × Vector Float n :=
  let overlap := dot u v
  if overlap == 0 then (u, v)
  else
    let cot := (dot v v - dot u u) / (2 * overlap)
    let size := 1 / (cot.abs + (1 + cot * cot).sqrt)
    let tangent := if cot < 0 then -size else size
    let cosine := 1 / (1 + tangent * tangent).sqrt
    let sine := cosine * tangent
    (combine cosine (-sine) u v, combine sine cosine u v)

def turnRows (c : Cells Float m n) (p q : Fin m) : Cells Float m n :=
  let (u, v) := turn (c.row p) (c.row q)
  ⟨Vector.ofFn fun i => if i = p then u else if i = q then v else c.row i⟩

/-- The pairs of different rows, each once. -/
def rowPairs (m : Nat) : List (Fin m × Fin m) :=
  (List.finRange m).flatMap fun p =>
    ((List.finRange m).filter fun q => p < q).map fun q => (p, q)

/-- Every pair of rows is turned once. -/
def sweep (c : Cells Float m n) : Cells Float m n :=
  (rowPairs m).foldl (fun c (p, q) => turnRows c p q) c

/-- The rows converge quadratically to orthogonal ones; this many sweeps are more
than doubles can tell apart. -/
def sweepCount : Nat := 30

/-- The lengths of the rows after the sweeps. -/
def rowLengths (c : Cells Float m n) : List Float :=
  let turned := (List.range sweepCount).foldl (fun c _ => sweep c) c
  turned.rows.toList.map fun u => (dot u u).sqrt

/-- The largest absolute value of a cell. -/
def largest {R : Type} [Scalar R] (c : Cells R m n) : R :=
  c.toList.foldl (fun best x => Scalar.larger best (Scalar.abs x)) 0

/-- The singular values, found on cells of size at most one and scaled back. -/
def singularValues (c : Cells Float m n) : List Float :=
  let scale := largest c
  if scale == 0 then List.replicate (min m n) 0
  else
    let scaled : Cells Float m n := Cells.ofFn fun i j => c.entry i j / scale
    let lengths := if m ≤ n then rowLengths scaled else rowLengths scaled.transpose
    lengths.map (· * scale)

end Spectrum

instance : SpectralScalar Float where
  singularValues := Spectrum.singularValues

end SciCalc
