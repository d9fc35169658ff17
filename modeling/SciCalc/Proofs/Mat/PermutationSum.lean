import Mathlib
import SciCalc.Proofs.Mat.Inverse

/-!
# The determinant as a sum over permutations

Expansion along the first row, down to the rules for the small sizes, gives the
signed sum of the products that take one entry from each row and each column.
The minors that the expansion passes through are always there.
-/

namespace SciCalc

namespace Cells

variable {n : ℕ}

/-- The column of the entry that is taken from a row is chosen by the
permutation, so the matrix is read in transposed order. -/
theorem cofactorDet_eq_sum (c : Cells ℚ n n) :
    c.cofactorDet =
      ∑ σ : Equiv.Perm (Fin n),
        (Equiv.Perm.sign σ : ℚ) * ∏ i, c.entry i (σ i) := by
  rw [cofactorDet_eq_det, ← Matrix.det_transpose, Matrix.det_apply']
  rfl

end Cells

namespace Mat

theorem minor_square {n : ℕ} (c : Cells ℚ (n + 2) (n + 2))
    (hn : 0 < n + 2) {row col : ℕ} (hrow : row < n + 2) (hcol : col < n + 2) :
    minor ⟨n + 2, n + 2, c, hn, hn⟩ row col =
      .ok ⟨n + 1, n + 1, c.minor ⟨row, hrow⟩ ⟨col, hcol⟩, n.succ_pos,
        n.succ_pos⟩ := by
  rw [minor, dif_pos ⟨hrow, hcol⟩]

/-- The determinant of a square matrix is its signed sum over permutations,
and only a matrix that is not square is refused. A square matrix of at least
two rows has all minors of its first row, one size smaller and with
determinants of their own. -/
theorem determinant_eq_permutation_sum (a : Mat ℚ) :
    (∀ hsquare : a.rows = a.cols,
      a.determinant = .ok (∑ σ : Equiv.Perm (Fin a.rows),
        (Equiv.Perm.sign σ : ℚ) *
          ∏ i, a.entry i ((σ i).cast hsquare))) ∧
    (a.rows ≠ a.cols →
      a.determinant =
        .error (.dimension (.notSquare .determinant a.rows a.cols))) ∧
    (a.rows = a.cols → 2 ≤ a.rows → ∀ col < a.cols,
      ∃ m det, a.minor 0 col = .ok m ∧
        m.rows + 1 = a.rows ∧ m.cols + 1 = a.cols ∧
        m.determinant = .ok det) := by
  obtain ⟨rows, cols, c, hrows, hcols⟩ := a
  refine ⟨?_, ?_, ?_⟩
  · intro hsquare
    obtain rfl : rows = cols := hsquare
    rw [determinant_square, Cells.cofactorDet_eq_sum]
    rfl
  · intro hne
    rw [determinant, dif_neg hne]
  · intro hsquare htwo col hcol
    obtain rfl : rows = cols := hsquare
    obtain ⟨n, rfl⟩ := Nat.exists_eq_add_of_le' htwo
    exact ⟨_, _, minor_square c hrows (n + 1).succ_pos hcol, rfl, rfl,
      determinant_square _ n.succ_pos⟩

/-- Two of the six products of this matrix are not zero, `2 * 3 * 4` and
`1 * 1 * 5`, and both permutations are even. A single row of two has no
determinant. -/
theorem determinant_three_rows_and_one_row :
    (∑ σ : Equiv.Perm (Fin 3), (Equiv.Perm.sign σ : ℚ) *
      ∏ i, (Cells.ofFn ![![(0 : ℚ), 2, 1], ![1, 0, 3], ![4, 5, 0]]).entry
        i (σ i)) = 29 ∧
    determinant ⟨1, 2, Cells.ofFn ![![(1 : ℚ), 2]], one_pos, two_pos⟩ =
      .error (.dimension (.notSquare .determinant 1 2)) ∧
    ∃ m det, minor ⟨3, 3, Cells.ofFn ![![(0 : ℚ), 2, 1], ![1, 0, 3],
      ![4, 5, 0]], three_pos, three_pos⟩ 0 2 = .ok m ∧
        m.determinant = .ok det := by
  obtain ⟨hsum, -, hminors⟩ := determinant_eq_permutation_sum
    ⟨3, 3, Cells.ofFn ![![0, 2, 1], ![1, 0, 3], ![4, 5, 0]], three_pos,
      three_pos⟩
  obtain ⟨-, hrefused, -⟩ := determinant_eq_permutation_sum
    ⟨1, 2, Cells.ofFn ![![1, 2]], one_pos, two_pos⟩
  obtain ⟨m, det, hm, -, -, hdet⟩ := hminors rfl (by decide) 2 (by decide)
  refine ⟨?_, hrefused (by decide), m, det, hm, hdet⟩
  have hvalue := hsum rfl
  rw [determinant_square] at hvalue
  calc
    _ = Cells.cofactorDet
        (Cells.ofFn ![![0, 2, 1], ![1, 0, 3], ![4, 5, 0]]) :=
      (Except.ok.inj hvalue).symm
    _ = 29 := by decide +kernel

end Mat

end SciCalc
