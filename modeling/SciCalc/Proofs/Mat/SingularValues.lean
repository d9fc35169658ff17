import Mathlib

/-!
# Singular values of linear maps

A singular value is compared with a bound by counting directions: as many
singular values are above the bound as there are directions that the map
stretches, in every combination, by more than the bound. Directions can be
carried from one map to another one, singular values cannot.
-/

open Module
open scoped InnerProductSpace

namespace SciCalc.Spectrum

section Transfer

variable {E E' F : Type} [NormedAddCommGroup E] [NormedSpace ℝ E]
  [NormedAddCommGroup E'] [NormedSpace ℝ E'] [NormedAddCommGroup F]
  [NormedSpace ℝ F]

/-- There are `r` directions that the map stretches, in every combination, by
more than `ε`. -/
def Stretches (T : E →ₗ[ℝ] F) (ε : ℝ) (r : ℕ) : Prop :=
  ∃ L : (Fin r → ℝ) →ₗ[ℝ] E, ∀ x, x ≠ 0 → ε * ‖L x‖ < ‖T (L x)‖

/-- Directions of one map are directions of another one when they are carried
over at the expense of the bound. -/
theorem Stretches.transfer {T : E →ₗ[ℝ] F} {T' : E' →ₗ[ℝ] F} {ε ε' : ℝ} {r : ℕ}
    (h : Stretches T ε r) (P : E →ₗ[ℝ] E')
    (hlength : ∀ v, ε' * ‖P v‖ ≤ ε * ‖v‖) (hvalue : ∀ v, T' (P v) = T v) :
    Stretches T' ε' r := by
  obtain ⟨L, hL⟩ := h
  refine ⟨P ∘ₗ L, fun x hx => ?_⟩
  rw [LinearMap.comp_apply, hvalue]
  exact (hlength (L x)).trans_lt (hL x hx)

/-- A map that stretches nothing by more than the bound. -/
theorem not_stretches {T : E →ₗ[ℝ] F} {ε : ℝ} (h : ∀ v, ‖T v‖ ≤ ε * ‖v‖)
    (r : ℕ) : ¬Stretches T ε (r + 1) := by
  rintro ⟨L, hL⟩
  have hne : (1 : Fin (r + 1) → ℝ) ≠ 0 := one_ne_zero
  exact absurd (hL 1 hne) (not_lt.2 (h (L 1)))

/-- A single direction. -/
theorem stretches_one {T : E →ₗ[ℝ] F} {ε : ℝ} {v : E}
    (h : ε * ‖v‖ < ‖T v‖) : Stretches T ε 1 := by
  refine ⟨(LinearMap.proj 0).smulRight v, fun x hx => ?_⟩
  have hcoordinate : x 0 ≠ 0 := by
    intro hzero
    exact hx (funext fun i => by rw [Fin.fin_one_eq_zero i, hzero]; rfl)
  rw [LinearMap.smulRight_apply, LinearMap.proj_apply, map_smul, norm_smul,
    norm_smul, mul_left_comm]
  exact mul_lt_mul_of_pos_left h (norm_pos_iff.2 hcoordinate)

end Transfer

variable {E F : Type} [NormedAddCommGroup E] [InnerProductSpace ℝ E]
  [FiniteDimensional ℝ E] [NormedAddCommGroup F] [InnerProductSpace ℝ F]
  [FiniteDimensional ℝ F]

/-- Directions in which a map acts by one singular value each. -/
noncomputable def axes (T : E →ₗ[ℝ] F) :
    OrthonormalBasis (Fin (finrank ℝ E)) ℝ E :=
  T.isSymmetric_adjoint_comp_self.eigenvectorBasis rfl

theorem norm_sq_eq_sum (T : E →ₗ[ℝ] F) (v : E) :
    ‖v‖ ^ 2 = ∑ i, ⟪axes T i, v⟫_ℝ ^ 2 :=
  ((axes T).sum_sq_inner_right v).symm

theorem norm_apply_sq_eq_sum (T : E →ₗ[ℝ] F) (v : E) :
    ‖T v‖ ^ 2 = ∑ i : Fin (finrank ℝ E),
      T.singularValues i ^ 2 * ⟪axes T i, v⟫_ℝ ^ 2 := by
  have hinner : ‖T v‖ ^ 2 = ⟪(LinearMap.adjoint T ∘ₗ T) v, v⟫_ℝ := by
    rw [LinearMap.comp_apply, LinearMap.adjoint_inner_left,
      real_inner_self_eq_norm_sq]
  rw [hinner, ← (axes T).sum_inner_mul_inner]
  apply Finset.sum_congr rfl
  intro i _
  have hcoordinate : ⟪axes T i, (LinearMap.adjoint T ∘ₗ T) v⟫_ℝ =
      T.singularValues i ^ 2 * ⟪axes T i, v⟫_ℝ := by
    rw [T.sq_singularValues_fin rfl, ← (axes T).repr_apply_apply,
      ← (axes T).repr_apply_apply]
    exact T.isSymmetric_adjoint_comp_self.eigenvectorBasis_apply_self_apply
      rfl v i
  rw [real_inner_comm, hcoordinate]
  ring

theorem stretches_of_lt_singularValues {T : E →ₗ[ℝ] F} {ε : ℝ} (hε : 0 ≤ ε)
    {k : ℕ} (h : ε < T.singularValues k) : Stretches T ε (k + 1) := by
  have hk : k < finrank ℝ E := by
    by_contra hk
    rw [T.singularValues_of_finrank_le (not_lt.1 hk)] at h
    exact absurd h (not_lt.2 hε)
  let place : Fin (k + 1) → Fin (finrank ℝ E) := Fin.castLE hk
  have hindependent : LinearIndependent ℝ fun j => axes T (place j) :=
    (axes T).orthonormal.linearIndependent.comp place (Fin.castLE_injective hk)
  refine ⟨Fintype.linearCombination ℝ fun j => axes T (place j), ?_⟩
  intro x hx
  set v := Fintype.linearCombination ℝ (fun j => axes T (place j)) x with hv
  have hne : v ≠ 0 := by
    rw [hv, ← map_zero (Fintype.linearCombination ℝ fun j => axes T (place j))]
    exact fun heq => hx (hindependent.fintypeLinearCombination_injective heq)
  have hzero : ∀ i : Fin (finrank ℝ E), k < i → ⟪axes T i, v⟫_ℝ = 0 := by
    intro i hi
    rw [hv, Fintype.linearCombination_apply, inner_sum]
    apply Finset.sum_eq_zero
    intro j _
    have hother : i ≠ place j := by
      rintro rfl
      exact absurd j.isLt (not_lt.2 hi)
    rw [inner_smul_right, (axes T).orthonormal.inner_eq_zero hother, mul_zero]
  have hstretched : (T.singularValues k * ‖v‖) ^ 2 ≤ ‖T v‖ ^ 2 := by
    rw [mul_pow, norm_sq_eq_sum T v, norm_apply_sq_eq_sum T v, Finset.mul_sum]
    apply Finset.sum_le_sum
    intro i _
    rcases lt_or_ge k i with hi | hi
    · simp [hzero i hi]
    · have hmono := T.singularValues_antitone hi
      have hnonneg := T.singularValues_nonneg k
      gcongr
  calc
    ε * ‖v‖ < T.singularValues k * ‖v‖ := by
      gcongr
    _ ≤ ‖T v‖ := le_of_sq_le_sq hstretched (norm_nonneg _)

theorem lt_singularValues_of_stretches {T : E →ₗ[ℝ] F} {ε : ℝ}
    {k : ℕ} (h : Stretches T ε (k + 1)) : ε < T.singularValues k := by
  obtain ⟨L, hL⟩ := h
  -- some combination has no part in the first `k` axes
  let early : (Fin (k + 1) → ℝ) →ₗ[ℝ] (Fin k → ℝ) :=
    LinearMap.pi fun j =>
      if h : j.val < finrank ℝ E then innerₛₗ ℝ (axes T ⟨j, h⟩) ∘ₗ L else 0
  have hkernel : LinearMap.ker early ≠ ⊥ :=
    LinearMap.ker_ne_bot_of_finrank_lt (by simp)
  obtain ⟨x, hx, hne⟩ := Submodule.exists_mem_ne_zero_of_ne_bot hkernel
  have hzero : ∀ i : Fin (finrank ℝ E), i.val < k → ⟪axes T i, L x⟫_ℝ = 0 := by
    intro i hi
    have hplace := congrFun (LinearMap.mem_ker.1 hx) ⟨i, hi⟩
    simpa [early] using hplace
  have hweak : ‖T (L x)‖ ^ 2 ≤ (T.singularValues k * ‖L x‖) ^ 2 := by
    rw [mul_pow, norm_sq_eq_sum T (L x), norm_apply_sq_eq_sum T (L x),
      Finset.mul_sum]
    apply Finset.sum_le_sum
    intro i _
    rcases lt_or_ge i.val k with hi | hi
    · simp [hzero i hi]
    · have hmono := T.singularValues_antitone hi
      have hnonneg := T.singularValues_nonneg i
      gcongr
  have hbound : ε * ‖L x‖ < T.singularValues k * ‖L x‖ :=
    (hL x hne).trans_le (le_of_sq_le_sq hweak
      (mul_nonneg (T.singularValues_nonneg k) (norm_nonneg _)))
  exact lt_of_mul_lt_mul_right hbound (norm_nonneg _)

/-- The characterization of a singular value by the directions in which the map
stretches more. -/
theorem lt_singularValues_iff {T : E →ₗ[ℝ] F} {ε : ℝ} (hε : 0 ≤ ε) {k : ℕ} :
    ε < T.singularValues k ↔ Stretches T ε (k + 1) :=
  ⟨stretches_of_lt_singularValues hε, lt_singularValues_of_stretches⟩

end SciCalc.Spectrum
