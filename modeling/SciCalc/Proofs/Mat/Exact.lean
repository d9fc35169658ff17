import Mathlib
import SciCalc.Mat.Algebra
import SciCalc.Mat.Determinant

/-!
# Cells of exact numbers as matrices

Over the rational numbers a rectangle of cells is a matrix, and every operation
on cells is the operation of the same name on matrices. The recursive expansion
along the first row is the determinant.
-/

namespace SciCalc

/-! ## Exact scalars -/

namespace Scalar

theorem abs_eq_abs (q : ℚ) : Scalar.abs q = |q| := by
  change (if q < 0 then -q else q) = |q|
  split
  · next hneg => rw [abs_of_neg hneg]
  · next hneg => rw [abs_of_nonneg (not_lt.1 hneg)]

theorem less_eq_true_iff {p q : ℚ} : Scalar.less p q = true ↔ p < q :=
  decide_eq_true_iff

theorem same_eq_true_iff {p q : ℚ} : Scalar.same p q = true ↔ p = q :=
  decide_eq_true_iff

theorem ratio_eq_div (p q : ℕ) : (Scalar.ratio p q : ℚ) = p / q := rfl

/-- Pivots and determinants are compared with the same tolerance. -/
theorem below_tolerance_iff (q : ℚ) :
    Scalar.less (Scalar.abs q) (Scalar.ratio 1 (Nat.pow 10 10)) = true ↔
      |q| < 1 / 10 ^ 10 := by
  rw [less_eq_true_iff, abs_eq_abs, ratio_eq_div]
  norm_num

theorem alternating_eq_pow (place : ℕ) :
    (Scalar.alternating place : ℚ) = (-1) ^ place := by
  unfold Scalar.alternating
  rw [neg_one_pow_eq_pow_mod_two]
  rcases Nat.mod_two_eq_zero_or_one place with h | h
  · rw [h]
    rfl
  · rw [h]
    norm_num

theorem foldl_add_eq_sum (n : ℕ) (f : Fin n → ℚ) :
    Fin.foldl n (fun total k => total + f k) 0 = ∑ k, f k := by
  induction n with
  | zero => rfl
  | succ n ih => rw [Fin.foldl_succ_last, ih, Fin.sum_univ_castSucc]

theorem sum_eq_sum (n : ℕ) (f : Fin n → ℚ) : Scalar.sum n f = ∑ k, f k :=
  foldl_add_eq_sum n f

end Scalar

namespace Cells

variable {m n k : ℕ}

/-- The matrix of a rectangle of exact numbers. -/
def toMatrix (c : Cells ℚ m n) : Matrix (Fin m) (Fin n) ℚ :=
  Matrix.of c.entry

@[simp]
theorem toMatrix_apply (c : Cells ℚ m n) (i : Fin m) (j : Fin n) :
    c.toMatrix i j = c.entry i j := rfl

theorem toMatrix_injective :
    Function.Injective (toMatrix : Cells ℚ m n → Matrix (Fin m) (Fin n) ℚ) := by
  intro a b hab
  exact Cells.ext fun i j => congrFun (congrFun hab i) j

@[simp]
theorem toMatrix_ofFn (f : Fin m → Fin n → ℚ) :
    (ofFn f).toMatrix = Matrix.of f := by
  ext i j
  simp

theorem toMatrix_mul (a : Cells ℚ m k) (b : Cells ℚ k n) :
    (a.mul b).toMatrix = a.toMatrix * b.toMatrix := by
  ext i j
  simp only [mul, entry_ofFn, toMatrix_apply, Matrix.mul_apply]
  exact Scalar.sum_eq_sum k _

theorem toMatrix_identity : (identity : Cells ℚ n n).toMatrix = 1 := by
  ext i j
  simp only [identity, toMatrix_ofFn, Matrix.of_apply, Matrix.one_apply]

theorem skip_eq_succAbove (gap : Fin (n + 1)) (i : Fin n) :
    skip gap i = gap.succAbove i := by
  unfold skip Fin.succAbove
  simp only [Fin.lt_def, Fin.val_castSucc]

theorem toMatrix_minor (c : Cells ℚ (m + 1) (n + 1)) (row : Fin (m + 1))
    (col : Fin (n + 1)) :
    (c.minor row col).toMatrix =
      c.toMatrix.submatrix row.succAbove col.succAbove := by
  ext i j
  simp [skip_eq_succAbove]

/-- Expansion along the first row gives the determinant at every size. The
small sizes have rules of their own, so the induction starts at the third. -/
theorem cofactorDet_eq_det :
    ∀ {n : ℕ} (c : Cells ℚ n n), c.cofactorDet = c.toMatrix.det := by
  intro n c
  match n with
  | 0 => rw [cofactorDet, Matrix.det_isEmpty]
  | 1 => rw [cofactorDet, Matrix.det_fin_one, toMatrix_apply]
  | 2 =>
      rw [cofactorDet, Matrix.det_fin_two]
      simp only [toMatrix_apply]
  | n + 3 =>
      rw [cofactorDet, Matrix.det_succ_row_zero]
      refine (Scalar.foldl_add_eq_sum (n + 3) _).trans ?_
      apply Finset.sum_congr rfl
      intro j _
      rw [cofactorDet_eq_det (c.minor 0 j), toMatrix_minor,
        Scalar.alternating_eq_pow, Fin.succAbove_zero]
      rfl

end Cells

end SciCalc
