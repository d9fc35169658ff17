import SciCalc.Proofs.Calculus.ExactIntegral

/-!
# Integrals of cubics

The rule over one pair of subintervals is exact for polynomials of the third
degree, although it only looks for parabolas. The pairs follow one another, so
the rule is exact over any even number of subintervals.
-/

namespace SciCalc.Simpson

open Polynomial

variable {p F : ℚ[X]}

theorem coeff_antiderivative (hF : derivative F = p) (i : ℕ) :
    p.coeff i = F.coeff (i + 1) * (i + 1) := by
  rw [← hF, coeff_derivative]

theorem natDegree_antiderivative_le (hdegree : p.natDegree ≤ 3)
    (hF : derivative F = p) : F.natDegree ≤ 4 := by
  rw [natDegree_le_iff_coeff_eq_zero]
  intro i hi
  obtain ⟨k, rfl⟩ : ∃ k, i = k + 1 := ⟨i - 1, by omega⟩
  have hcoeff : p.coeff k = 0 :=
    coeff_eq_zero_of_natDegree_lt (by omega)
  rw [coeff_antiderivative hF] at hcoeff
  exact (mul_eq_zero.1 hcoeff).resolve_right (by positivity)

/-- Two subintervals of a cubic. -/
theorem rule_two_cubic (hdegree : p.natDegree ≤ 3) (hF : derivative F = p)
    (a h : ℚ) :
    rule (fun x => p.eval x) a h 2 = F.eval (a + 2 * h) - F.eval a := by
  have hp : ∀ x, p.eval x = ∑ i ∈ Finset.range 4,
      F.coeff (i + 1) * (i + 1) * x ^ i := by
    intro x
    rw [eval_eq_sum_range' (Nat.lt_succ_of_le hdegree)]
    simp only [coeff_antiderivative hF]
  have hantiderivative : ∀ x, F.eval x =
      ∑ i ∈ Finset.range 5, F.coeff i * x ^ i :=
    eval_eq_sum_range'
      (Nat.lt_succ_of_le (natDegree_antiderivative_le hdegree hF))
  rw [rule_two]
  simp only [hp, hantiderivative, Finset.sum_range_succ, Finset.sum_range_zero]
  push_cast
  ring

/-- The induction is on the pairs of subintervals, the last of which ends where
the range does. -/
theorem rule_cubic (hdegree : p.natDegree ≤ 3) (hF : derivative F = p)
    (a h : ℚ) (pairs : ℕ) :
    rule (fun x => p.eval x) a h (2 * (pairs + 1)) =
      F.eval (a + (2 * (pairs + 1) : ℕ) * h) - F.eval a := by
  induction pairs with
  | zero =>
      rw [Nat.zero_add, Nat.mul_one, rule_two_cubic hdegree hF, Nat.cast_ofNat]
  | succ pairs ih =>
      have hend : a + (2 * (pairs + 1) : ℕ) * h + 2 * h =
          a + (2 * (pairs + 1) + 2 : ℕ) * h := by
        push_cast
        ring
      rw [Nat.mul_succ, rule_add (by omega) two_pos (even_two_mul _), ih,
        rule_two_cubic hdegree hF, hend, add_comm, sub_add_sub_cancel]

/-- Simpson's rule integrates polynomials of the third degree exactly, from
left to right and from right to left. -/
theorem integral_of_cubic_exact (ε : Type) {p F : ℚ[X]}
    (hdegree : p.natDegree ≤ 3) (hF : derivative F = p) (a b : ℚ) {n : ℕ}
    (hpos : 0 < n) (heven : Even n) :
    exactIntegral ε (fun x => p.eval x) a b n = .ok (F.eval b - F.eval a) := by
  obtain ⟨pairs, rfl⟩ : ∃ pairs, n = 2 * (pairs + 1) := by
    obtain ⟨half, hhalf⟩ := heven
    exact ⟨half - 1, by omega⟩
  rw [exactIntegral_eq hpos heven, rule_cubic hdegree hF, add_mul_width hpos]

/-- From the greater limit to the smaller one. -/
theorem integral_of_cubic_backwards :
    let p : ℚ[X] := X ^ 3 - C 2 * X
    let F : ℚ[X] := C (1 / 4) * X ^ 4 - X ^ 2
    p.natDegree ≤ 3 ∧ derivative F = p ∧ 0 < 4 ∧ Even 4 ∧
      exactIntegral Empty (fun x => p.eval x) 2 (-1) 4 = .ok (-(3 / 4)) := by
  intro p F
  have hdegree : p.natDegree ≤ 3 := by
    simp only [p]
    compute_degree
  have hF : derivative F = p := by
    simp only [F, p, derivative_sub, derivative_C_mul, derivative_X_pow,
      ← mul_assoc, ← C_mul]
    norm_num
  have heven : Even 4 := by decide
  refine ⟨hdegree, hF, four_pos, heven, ?_⟩
  rw [integral_of_cubic_exact Empty hdegree hF 2 (-1) four_pos heven]
  norm_num [F]

end SciCalc.Simpson
