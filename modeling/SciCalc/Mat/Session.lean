import SciCalc.Mat.Algebra
import SciCalc.Mat.Determinant

/-!
# Editing a matrix

A matrix is edited step by step. A step that fails leaves the matrix as it was.
-/

namespace SciCalc

/-- One step of editing; the current matrix is always the left operand. -/
inductive MatEdit (R : Type) where
  | set (i j : Nat) (value : R)
  | resize (rows cols : Nat)
  | transpose
  | minor (row col : Nat)
  | add (right : Mat R)
  | subtract (right : Mat R)
  | multiply (right : Mat R)
  | square
  | inverse

namespace MatEdit

variable {R : Type} [Scalar R]

/-- What a step makes of a matrix. -/
def apply (a : Mat R) : MatEdit R → Except (MatError R) (Mat R)
  | set i j value => a.set i j value
  | resize rows cols => a.resized rows cols
  | transpose => .ok a.transpose
  | minor row col => a.minor row col
  | add right => a.add right
  | subtract right => a.subtract right
  | multiply right => a.multiply right
  | square => a.multiply a
  | inverse => a.inverse

/-- The matrix behind a step, whether it succeeds or fails. -/
def after (a : Mat R) (e : MatEdit R) : Mat R :=
  match apply a e with
  | .ok b => b
  | .error _ => a

/-- The matrix behind a sequence of steps. -/
def run (a : Mat R) (steps : List (MatEdit R)) : Mat R :=
  steps.foldl after a

end MatEdit

end SciCalc
