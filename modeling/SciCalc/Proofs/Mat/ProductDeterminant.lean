import Mathlib
import SciCalc.Proofs.Mat.Inverse

/-!
# Determinants of products and transposes

The expansion runs along the first row only. Over exact numbers it is
nevertheless the sum over all permutations, so that the determinant is
multiplicative and does not change when rows become columns.
-/

namespace SciCalc

namespace Cells

variable {n : ℕ}

theorem toMatrix_transpose {m : ℕ} (c : Cells ℚ m n) :
    c.transpose.toMatrix = c.toMatrix.transpose := by
  ext j i
  exact entry_transpose c i j

theorem cofactorDet_mul (c d : Cells ℚ n n) :
    (c.mul d).cofactorDet = c.cofactorDet * d.cofactorDet := by
  rw [cofactorDet_eq_det, toMatrix_mul, Matrix.det_mul, ← cofactorDet_eq_det,
    ← cofactorDet_eq_det]

theorem cofactorDet_transpose (c : Cells ℚ n n) :
    c.transpose.cofactorDet = c.cofactorDet := by
  rw [cofactorDet_eq_det, toMatrix_transpose, Matrix.det_transpose,
    ← cofactorDet_eq_det]

end Cells

namespace Mat

/-- Two square matrices of one size have determinants and a product; the
determinant of the product is the product of the determinants. Transposition
changes no determinant. -/
theorem determinant_multiply_and_transpose (a b : Mat ℚ)
    (ha : a.rows = a.cols) (hb : b.rows = b.cols) (hsize : a.rows = b.rows) :
    ∃ p q c, a.determinant = .ok p ∧ b.determinant = .ok q ∧
      a.multiply b = .ok c ∧ c.determinant = .ok (p * q) ∧
      a.transpose.determinant = .ok p := by
  obtain ⟨n, cols, c, hn, hcols⟩ := a
  obtain rfl : n = cols := ha
  obtain ⟨m, cols, d, hm, hcols'⟩ := b
  obtain rfl : m = cols := hb
  obtain rfl : n = m := hsize
  refine ⟨c.cofactorDet, d.cofactorDet, ⟨n, n, c.mul d, hn, hn⟩,
    determinant_square c hn, determinant_square d hn,
    multiply_square c d hn, ?_, ?_⟩
  · rw [determinant_square, Cells.cofactorDet_mul]
  · rw [transpose, determinant_square, Cells.cofactorDet_transpose]

/-- The determinants are `29` and `-3`, that of the product is `-87`. -/
theorem determinant_of_product_of_three_rows :
    let a : Mat ℚ := ⟨3, 3, Cells.ofFn ![![0, 2, 1], ![1, 0, 3], ![4, 5, 0]],
      three_pos, three_pos⟩
    let b : Mat ℚ := ⟨3, 3, Cells.ofFn ![![1, 2, 3], ![4, 5, 6], ![7, 8, 10]],
      three_pos, three_pos⟩
    (∃ c, a.multiply b = .ok c ∧ c.determinant = .ok (-87)) ∧
      a.transpose.determinant = .ok 29 := by
  intro a b
  have hp : a.determinant = .ok 29 := by decide +kernel
  have hq : b.determinant = .ok (-3) := by decide +kernel
  obtain ⟨p, q, c, hp', hq', hc, hproduct, htranspose⟩ :=
    determinant_multiply_and_transpose a b rfl rfl rfl
  cases hp.symm.trans hp'
  cases hq.symm.trans hq'
  rw [show (29 : ℚ) * -3 = -87 by norm_num] at hproduct
  exact ⟨⟨c, hc, hproduct⟩, htranspose⟩

end Mat

end SciCalc
