import Mathlib
import SciCalc.Calculator
import SciCalc.Proofs.Mat.Inverse
import SciCalc.Proofs.Mat.TriangularFactors

/-!
# Triangular factorisation against cofactors

The two ways to a determinant and to an inverse give the same results over
exact numbers. The product of the diagonal is the determinant up to the sign of
the row exchanges, so a determinant that is not zero leaves no zero on the
diagonal, and solving with both factors gives the only inverse there is.
-/

namespace SciCalc

theorem Scalar.foldl_mul_eq_prod (n : ℕ) (f : Fin n → ℚ) :
    Fin.foldl n (fun product i => product * f i) 1 = ∏ i, f i := by
  induction n with
  | zero => rfl
  | succ n ih => rw [Fin.foldl_succ_last, ih, Fin.prod_univ_castSucc]

namespace Factorisation

open Matrix

variable {n : ℕ}

theorem toMatrix_exchange (swaps : List (Fin n × Fin n)) (c : Cells ℚ n n) :
    (exchange swaps c).toMatrix =
      c.toMatrix.submatrix (origin swaps) id := by
  ext k j
  exact entry_exchange swaps c k j

/-- The product of the diagonal, with the sign of the exchanges. -/
theorem determinant_eq (s : Factorisation ℚ n) :
    s.determinant =
      (∏ i, s.factors.entry i i) * (-1) ^ s.swaps.length := by
  unfold determinant
  rw [Scalar.alternating_eq_pow]
  congr 1
  exact Scalar.foldl_mul_eq_prod n fun i => s.factors.entry i i

/-- The determinant changes its sign with every exchange. -/
theorem prod_diagonal (a : Cells ℚ n n) :
    ∏ i, (ofCells a).factors.entry i i =
      (-1) ^ (ofCells a).swaps.length * a.cofactorDet := by
  have hsign := sign_origin (represents_ofCells a).distinct
  calc
    ∏ i, (ofCells a).factors.entry i i =
        (lower (ofCells a).factors * upper (ofCells a).factors).det := by
      rw [det_mul, det_lower, det_upper, one_mul]
    _ = (Equiv.Perm.sign (origin (ofCells a).swaps) : ℚ) *
        a.toMatrix.det := by
      rw [lower_mul_upper, toMatrix_exchange, det_permute]
    _ = (-1) ^ (ofCells a).swaps.length * a.cofactorDet := by
      rw [hsign, Cells.cofactorDet_eq_det]
      push_cast
      rfl

theorem determinant_ofCells (a : Cells ℚ n n) :
    (ofCells a).determinant = a.cofactorDet := by
  rw [determinant_eq, prod_diagonal, mul_right_comm, ← mul_pow]
  norm_num

theorem diagonal_ne_zero {a : Cells ℚ n n} (hdet : a.cofactorDet ≠ 0)
    (i : Fin n) : (ofCells a).factors.entry i i ≠ 0 := by
  have hprod : ∏ i, (ofCells a).factors.entry i i ≠ 0 := by
    rw [prod_diagonal]
    exact mul_ne_zero (pow_ne_zero _ (by norm_num)) hdet
  exact Finset.prod_ne_zero_iff.1 hprod i (Finset.mem_univ i)

/-- Without a zero on the diagonal every column of the exchanged identity is
solved, and the solutions are the columns of the result. -/
theorem exists_inverse {s : Factorisation ℚ n}
    (hdiagonal : ∀ i, s.factors.entry i i ≠ 0) :
    ∃ b, s.inverse? = some b ∧
      lower s.factors * (upper s.factors * b.toMatrix) =
        (exchange s.swaps Cells.identity).toMatrix := by
  choose solution hsolution hupper using fun b =>
    s.exists_backward hdiagonal (s.forward b)
  set right := (exchange s.swaps Cells.identity).transpose with hright
  have hcolumns : right.rows.toList.mapM
      (fun b => s.backward? (s.forward b)) =
        some (right.rows.toList.map solution) := by
    simp only [hsolution]
    exact List.mapM_pure
  refine ⟨Cells.ofFn fun i j => (solution right.rows[j]).get i, ?_, ?_⟩
  · change (right.rows.toList.mapM
      (fun b => s.backward? (s.forward b))).map _ = _
    rw [hcolumns, Option.map_some]
    congr 2
    funext i j
    simp
  · ext k j
    calc
      _ = (lower s.factors *ᵥ (upper s.factors *ᵥ
          (solution right.rows[j]).get)) k := by
        simp only [mul_apply, Cells.toMatrix_ofFn, of_apply, mulVec,
          dotProduct]
      _ = right.rows[j].get k := by
        rw [hupper, lower_mulVec_forward]
      _ = right.entry j k := rfl
      _ = (exchange s.swaps Cells.identity).toMatrix k j := by
        rw [hright, Cells.entry_transpose, Cells.toMatrix_apply]

/-- Undoing the exchanges on both sides, the result is an inverse from the
right. -/
theorem mul_eq_identity {a b : Cells ℚ n n}
    (hsolved : lower (ofCells a).factors *
      (upper (ofCells a).factors * b.toMatrix) =
        (exchange (ofCells a).swaps Cells.identity).toMatrix) :
    a.mul b = Cells.identity := by
  rw [← Matrix.mul_assoc, lower_mul_upper, toMatrix_exchange,
    toMatrix_exchange] at hsolved
  apply Cells.toMatrix_injective
  rw [Cells.toMatrix_mul]
  ext i j
  obtain ⟨k, rfl⟩ := (origin (ofCells a).swaps).surjective i
  exact congrFun (congrFun hsolved k) j

/-- The result of the two substitutions is the adjugate over the determinant,
because a matrix has no other inverse. -/
theorem inverse?_ofCells {a : Cells ℚ n n} (hdet : a.cofactorDet ≠ 0) :
    (ofCells a).inverse? = some (a.adjugateOver a.cofactorDet) := by
  obtain ⟨b, hb, hsolved⟩ := exists_inverse (diagonal_ne_zero hdet)
  have hleft : (a.adjugateOver a.cofactorDet).toMatrix * a.toMatrix = 1 := by
    rw [← Cells.toMatrix_mul, a.adjugateOver_mul hdet, Cells.toMatrix_identity]
  have hright : a.toMatrix * b.toMatrix = 1 := by
    rw [← Cells.toMatrix_mul, mul_eq_identity hsolved, Cells.toMatrix_identity]
  rw [hb, Cells.toMatrix_injective (left_inv_eq_right_inv hleft hright)]

end Factorisation

namespace Mat

theorem determinantLU_eq_determinant (a : Mat ℚ) :
    a.determinantLU = a.determinant := by
  unfold determinantLU determinant
  simp only [Factorisation.determinant_ofCells]

/-- Where the determinant reaches the tolerance it is not zero, so neither way
fails behind the common refusal. -/
theorem inverseLU_eq_inverse (a : Mat ℚ) : a.inverseLU = a.inverse := by
  unfold inverseLU inverse
  split
  · next hsquare =>
    simp only [Factorisation.determinant_ofCells]
    split
    · rfl
    · next hlarge =>
      have hdet : (a.squareCells hsquare).cofactorDet ≠ 0 := by
        intro hzero
        apply hlarge
        rw [hzero, singularTolerance, Scalar.below_tolerance_iff]
        norm_num
      rw [Factorisation.inverse?_ofCells hdet]
  · rfl

end Mat

namespace Calculator

/-- Triangular factorisation and cofactors give the same determinant and the
same inverse, refusals included. So the calculator gives the results that it
would give with any other size as the largest one for cofactors. -/
theorem results_independent_of_cofactor_size (a : Mat ℚ) :
    a.determinantLU = a.determinant ∧
    a.inverseLU = a.inverse ∧
    ∀ size : ℕ,
      determinant a =
        (if a.rows ≤ size then a.determinant else a.determinantLU) ∧
      inverse a = (if a.rows ≤ size then a.inverse else a.inverseLU) := by
  have hdet := a.determinantLU_eq_determinant
  have hinv := a.inverseLU_eq_inverse
  refine ⟨hdet, hinv, fun size => ⟨?_, ?_⟩⟩
  · rw [determinant, hdet, ite_self, ite_self]
  · rw [inverse, hinv, ite_self, ite_self]

end Calculator

end SciCalc
