import Mathlib
import SciCalc.Proofs.Mat.Inverse
import SciCalc.Proofs.Mat.Shapes

/-!
# Ring laws of matrix arithmetic

Matrices of exact numbers obey the laws of a ring as far as their shapes fit.
The two sides of a law have the same result, or both are refused: what one side
asks of the shapes in the middle of its calculation, the other side asks as
well.
-/

namespace SciCalc

open Outcome

namespace Cells

variable {m n k l : ℕ}

theorem toMatrix_add (c d : Cells ℚ m n) :
    (c.add d).toMatrix = c.toMatrix + d.toMatrix := by
  ext i j
  exact entry_ofFn _ i j

protected theorem mul_assoc (c : Cells ℚ m n) (d : Cells ℚ n k) (e : Cells ℚ k l) :
    (c.mul d).mul e = c.mul (d.mul e) := by
  apply toMatrix_injective
  simp only [toMatrix_mul, Matrix.mul_assoc]

protected theorem mul_add (c : Cells ℚ m n) (d e : Cells ℚ n k) :
    c.mul (d.add e) = (c.mul d).add (c.mul e) := by
  apply toMatrix_injective
  simp only [toMatrix_mul, toMatrix_add, Matrix.mul_add]

end Cells

namespace Mat

section AnyScalar

variable {R : Type} [Scalar R]

theorem add_cells {m n : ℕ} (c d : Cells R m n) (hm : 0 < m) (hn : 0 < n) :
    add ⟨m, n, c, hm, hn⟩ ⟨m, n, d, hm, hn⟩ = .ok ⟨m, n, c.add d, hm, hn⟩ := by
  rw [add, cellwise, dif_pos ⟨rfl, rfl⟩]
  rfl

end AnyScalar

end Mat

end SciCalc
