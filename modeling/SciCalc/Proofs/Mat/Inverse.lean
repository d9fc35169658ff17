import Mathlib
import SciCalc.Proofs.Mat.Exact

/-!
# The adjugate inverse

Over exact numbers the cells of the adjugate, divided by a determinant that is
not zero, are the two-sided inverse. The tolerance is positive, so every
matrix that is not refused has such a determinant.
-/

namespace SciCalc

namespace Cells

variable {n : ℕ}

/-- The cells are written transposed and signed as in the adjugate matrix. A
single cell has no minors; there the adjugate is one. -/
theorem toMatrix_adjugateOver (det : ℚ) (c : Cells ℚ n n) :
    (c.adjugateOver det).toMatrix = det⁻¹ • c.toMatrix.adjugate := by
  match n with
  | 0 =>
      ext i
      exact i.elim0
  | 1 =>
      rw [adjugateOver, toMatrix_ofFn, Matrix.adjugate_fin_one]
      ext i j
      rw [Subsingleton.elim j i]
      simp
  | n + 2 =>
      ext i j
      rw [adjugateOver, toMatrix_apply, entry_ofFn, Matrix.smul_apply,
        Matrix.adjugate_fin_succ_eq_det_submatrix, cofactorDet_eq_det,
        toMatrix_minor, Scalar.alternating_eq_pow, smul_eq_mul, div_eq_inv_mul]

theorem mul_adjugateOver (c : Cells ℚ n n) (hdet : c.cofactorDet ≠ 0) :
    c.mul (c.adjugateOver c.cofactorDet) = identity := by
  apply toMatrix_injective
  rw [cofactorDet_eq_det] at hdet ⊢
  calc
    (c.mul (c.adjugateOver c.toMatrix.det)).toMatrix =
        c.toMatrix * (c.toMatrix.det⁻¹ • c.toMatrix.adjugate) := by
      rw [toMatrix_mul, toMatrix_adjugateOver]
    _ = c.toMatrix.det⁻¹ • (c.toMatrix.det • 1) := by
      rw [Matrix.mul_smul, Matrix.mul_adjugate]
    _ = (identity : Cells ℚ n n).toMatrix := by
      rw [inv_smul_smul₀ hdet, toMatrix_identity]

theorem adjugateOver_mul (c : Cells ℚ n n) (hdet : c.cofactorDet ≠ 0) :
    (c.adjugateOver c.cofactorDet).mul c = identity := by
  apply toMatrix_injective
  rw [cofactorDet_eq_det] at hdet ⊢
  calc
    ((c.adjugateOver c.toMatrix.det).mul c).toMatrix =
        c.toMatrix.det⁻¹ • c.toMatrix.adjugate * c.toMatrix := by
      rw [toMatrix_mul, toMatrix_adjugateOver]
    _ = c.toMatrix.det⁻¹ • (c.toMatrix.det • 1) := by
      rw [Matrix.smul_mul, Matrix.adjugate_mul]
    _ = (identity : Cells ℚ n n).toMatrix := by
      rw [inv_smul_smul₀ hdet, toMatrix_identity]

end Cells

namespace Mat

variable {n : ℕ}

theorem identity_eq_ok (hn : 0 < n) :
    (identity n : Except (MatError ℚ) (Mat ℚ)) =
      .ok ⟨n, n, Cells.identity, hn, hn⟩ := by
  rw [identity, build, dif_pos ⟨hn, hn⟩]
  rfl

theorem multiply_cells {R : Type} [Scalar R] {m k : ℕ} (c : Cells R m k)
    (d : Cells R k n) (hm : 0 < m) (hk : 0 < k) (hn : 0 < n) :
    multiply ⟨m, k, c, hm, hk⟩ ⟨k, n, d, hk, hn⟩ =
      .ok ⟨m, n, c.mul d, hm, hn⟩ := by
  rw [multiply, dif_pos rfl]
  rfl

theorem multiply_square (c d : Cells ℚ n n) (hn : 0 < n) :
    multiply ⟨n, n, c, hn, hn⟩ ⟨n, n, d, hn, hn⟩ =
      .ok ⟨n, n, c.mul d, hn, hn⟩ :=
  multiply_cells c d hn hn hn

theorem squareCells_square (c : Cells ℚ n n) (hn : 0 < n) :
    squareCells ⟨n, n, c, hn, hn⟩ rfl = c := by
  apply Cells.ext
  intro i j
  rw [squareCells, Cells.entry_ofFn]
  rfl

theorem determinant_square (c : Cells ℚ n n) (hn : 0 < n) :
    determinant ⟨n, n, c, hn, hn⟩ = .ok c.cofactorDet := by
  rw [determinant, dif_pos rfl, squareCells_square]

theorem inverse_square (c : Cells ℚ n n) (hn : 0 < n) :
    inverse ⟨n, n, c, hn, hn⟩ =
      if |c.cofactorDet| < 1 / 10 ^ 10 then .error (.singular c.cofactorDet)
      else .ok ⟨n, n, c.adjugateOver c.cofactorDet, hn, hn⟩ := by
  rw [inverse, dif_pos rfl]
  simp only [squareCells_square, singularTolerance,
    Scalar.below_tolerance_iff]

/-- The inverse of a square matrix exists exactly when its determinant reaches
the tolerance, and it is then a two-sided inverse of the same shape. Every
other square matrix is refused with its determinant. -/
theorem inverse_two_sided (a : Mat ℚ) (hsquare : a.rows = a.cols) :
    ∃ det, a.determinant = .ok det ∧
      ((∃ b, a.inverse = .ok b) ↔ 1 / 10 ^ 10 ≤ |det|) ∧
      (∀ b, a.inverse = .ok b →
        b.rows = a.rows ∧ b.cols = a.cols ∧
          ∃ one, identity a.rows = .ok one ∧
            a.multiply b = .ok one ∧ b.multiply a = .ok one) ∧
      (|det| < 1 / 10 ^ 10 → a.inverse = .error (.singular det)) := by
  obtain ⟨n, cols, c, hn, hcols⟩ := a
  obtain rfl : n = cols := hsquare
  refine ⟨c.cofactorDet, determinant_square c hn, ?_⟩
  rw [inverse_square]
  by_cases hsmall : |c.cofactorDet| < 1 / 10 ^ 10
  · rw [if_pos hsmall]
    refine ⟨⟨?_, fun hlarge => absurd hsmall hlarge.not_gt⟩, ?_, fun _ => rfl⟩
    · rintro ⟨b, hb⟩
      cases hb
    · intro b hb
      cases hb
  · rw [if_neg hsmall]
    have hdet : c.cofactorDet ≠ 0 := by
      intro hzero
      rw [hzero, abs_zero] at hsmall
      exact hsmall (by norm_num)
    refine ⟨⟨fun _ => not_lt.1 hsmall, fun _ => ⟨_, rfl⟩⟩, ?_,
      fun h => absurd h hsmall⟩
    intro b hb
    cases hb
    refine ⟨rfl, rfl, _, identity_eq_ok hn, ?_, ?_⟩
    · rw [multiply_square, Cells.mul_adjugateOver c hdet]
    · rw [multiply_square, Cells.adjugateOver_mul c hdet]

/-- A matrix of determinant one has an inverse, and a matrix with proportional
rows has none. -/
theorem inverse_unimodular_and_proportional :
    (∃ b, inverse ⟨2, 2, Cells.ofFn ![![(2 : ℚ), 1], ![5, 3]], two_pos,
        two_pos⟩ = .ok b ∧
      ∃ one, identity 2 = .ok one ∧
        b.multiply ⟨2, 2, Cells.ofFn ![![2, 1], ![5, 3]], two_pos, two_pos⟩ =
          .ok one) ∧
    inverse ⟨2, 2, Cells.ofFn ![![(1 : ℚ), 2], ![2, 4]], two_pos, two_pos⟩ =
      .error (.singular 0) := by
  constructor
  · obtain ⟨det, hdet, hiff, hinverts, -⟩ :=
      inverse_two_sided
        ⟨2, 2, Cells.ofFn ![![2, 1], ![5, 3]], two_pos, two_pos⟩ rfl
    rw [determinant_square] at hdet
    cases hdet
    obtain ⟨b, hb⟩ := hiff.2 (by norm_num [Cells.cofactorDet])
    obtain ⟨-, -, one, hone, -, hleft⟩ := hinverts b hb
    exact ⟨b, hb, one, hone, hleft⟩
  · obtain ⟨det, hdet, -, -, hrefused⟩ :=
      inverse_two_sided
        ⟨2, 2, Cells.ofFn ![![1, 2], ![2, 4]], two_pos, two_pos⟩ rfl
    rw [determinant_square] at hdet
    cases hdet
    rw [hrefused (by norm_num [Cells.cofactorDet])]
    norm_num [Cells.cofactorDet]

end Mat

end SciCalc
