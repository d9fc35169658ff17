import Mathlib
import SciCalc.Mat.Factorisation
import SciCalc.Proofs.Mat.Exact

/-!
# Substitution with the triangular factors

Forward and backward substitution settle one unknown after the other: the
unknown takes its value, and its column is taken from the other entries. Those
still hold right-hand sides. What the settled unknowns and the remaining
right-hand sides stand for together never changes, so in the end the unknowns
solve the system that was given.
-/

namespace SciCalc.Factorisation

open Matrix

variable {n : ℕ}

/-- The right-hand side that the entries stand for when those in `settled` are
unknowns of `m` and the others are what is left of the right-hand side. -/
def represented (m : Matrix (Fin n) (Fin n) ℚ) (settled : Finset (Fin n))
    (x : Fin n → ℚ) (k : Fin n) : ℚ :=
  ∑ j ∈ settled, m k j * x j + if k ∈ settled then 0 else x k

/-- Entry `i` of `y` is the value of the unknown, and the other entries have
lost what this unknown contributes to them. -/
structure Settles (m : Matrix (Fin n) (Fin n) ℚ) (i : Fin n)
    (x y : Fin n → ℚ) : Prop where
  value : m i i * y i = x i
  others : ∀ k ≠ i, y k = x k - m k i * y i

theorem represented_empty (m : Matrix (Fin n) (Fin n) ℚ) (x : Fin n → ℚ) :
    represented m ∅ x = x := by
  funext k
  simp [represented]

theorem represented_univ (m : Matrix (Fin n) (Fin n) ℚ) (x : Fin n → ℚ) :
    represented m Finset.univ x = m *ᵥ x := by
  funext k
  simp [represented, mulVec, dotProduct]

theorem represented_congr {m m' : Matrix (Fin n) (Fin n) ℚ}
    {settled : Finset (Fin n)} (hcolumns : ∀ k, ∀ j ∈ settled, m k j = m' k j)
    (x : Fin n → ℚ) : represented m settled x = represented m' settled x := by
  funext k
  unfold represented
  congr 1
  apply Finset.sum_congr rfl
  intro j hj
  rw [hcolumns k j hj]

/-- Settling one more unknown changes nothing, as long as its column has zeros
in the rows of the settled ones. -/
theorem represented_insert {m : Matrix (Fin n) (Fin n) ℚ}
    {settled : Finset (Fin n)} {i : Fin n} {x y : Fin n → ℚ}
    (hi : i ∉ settled) (hzeros : ∀ k ∈ settled, m k i = 0)
    (hsettles : Settles m i x y) :
    represented m (insert i settled) y = represented m settled x := by
  have hkept : ∀ k ∈ settled, y k = x k := by
    intro k hk
    have hne : k ≠ i := fun heq => hi (heq ▸ hk)
    rw [hsettles.others k hne, hzeros k hk, zero_mul, sub_zero]
  funext k
  have hsum : ∑ j ∈ settled, m k j * y j = ∑ j ∈ settled, m k j * x j := by
    apply Finset.sum_congr rfl
    intro j hj
    rw [hkept j hj]
  unfold represented
  rw [Finset.sum_insert hi, hsum]
  by_cases hk : k ∈ settled
  · rw [if_pos (Finset.mem_insert_of_mem hk), if_pos hk, hzeros k hk]
    ring
  · rw [if_neg hk]
    by_cases hki : k = i
    · subst hki
      rw [if_pos (Finset.mem_insert_self k settled), hsettles.value]
      ring
    · have hnot : k ∉ insert i settled := by
        simp [hki, hk]
      rw [if_neg hnot, hsettles.others k hki]
      ring

section Sweep

variable {m : Matrix (Fin n) (Fin n) ℚ}
variable {step : Vector ℚ n → Fin n → Vector ℚ n}

/-- The induction is on the indices that are still to come; each of them has
zeros in the rows of those in front of it. -/
theorem represented_foldl
    (hstep : ∀ x i, Settles m i x.get (step x i).get)
    {indices : List (Fin n)}
    (hordered : indices.Pairwise fun i k => i ≠ k ∧ m i k = 0)
    {settled : Finset (Fin n)}
    (hbehind : ∀ i ∈ settled, ∀ k ∈ indices, i ≠ k ∧ m i k = 0)
    (x : Vector ℚ n) :
    represented m (settled ∪ indices.toFinset) (indices.foldl step x).get =
      represented m settled x.get := by
  induction indices generalizing settled x with
  | nil => simp
  | cons i rest ih =>
      obtain ⟨hfirst, hrest⟩ := List.pairwise_cons.1 hordered
      have hi : i ∉ settled := fun hmem =>
        (hbehind i hmem i List.mem_cons_self).1 rfl
      have hbehind' : ∀ j ∈ insert i settled, ∀ k ∈ rest,
          j ≠ k ∧ m j k = 0 := by
        intro j hj k hk
        rcases Finset.mem_insert.1 hj with rfl | hj
        · exact hfirst k hk
        · exact hbehind j hj k (List.mem_cons_of_mem i hk)
      have hunion : settled ∪ (i :: rest).toFinset =
          insert i settled ∪ rest.toFinset := by
        rw [List.toFinset_cons, Finset.union_insert, Finset.insert_union]
      rw [List.foldl_cons, hunion, ih hrest hbehind' (step x i)]
      exact represented_insert hi
        (fun k hk => (hbehind k hk i List.mem_cons_self).2) (hstep x i)

/-- When every unknown is settled, they solve the system. -/
theorem mulVec_foldl (hstep : ∀ x i, Settles m i x.get (step x i).get)
    {indices : List (Fin n)}
    (hordered : indices.Pairwise fun i k => i ≠ k ∧ m i k = 0)
    (hall : ∀ i, i ∈ indices) (b : Vector ℚ n) :
    m *ᵥ (indices.foldl step b).get = b.get := by
  have huniv : ∅ ∪ indices.toFinset = Finset.univ := by
    ext i
    simp [hall i]
  have hfold : represented m (∅ ∪ indices.toFinset)
      (indices.foldl step b).get = represented m ∅ b.get :=
    represented_foldl hstep hordered (by simp) b
  rwa [huniv, represented_univ, represented_empty] at hfold

end Sweep

/-! ## The two factors -/

/-- The multipliers below the diagonal, with ones on it. -/
def lower (factors : Cells ℚ n n) : Matrix (Fin n) (Fin n) ℚ :=
  Matrix.of fun k j =>
    if j < k then factors.entry k j else if j = k then 1 else 0

/-- What stands on and above the diagonal. -/
def upper (factors : Cells ℚ n n) : Matrix (Fin n) (Fin n) ℚ :=
  Matrix.of fun k j => if j < k then 0 else factors.entry k j

theorem lower_of_lt {factors : Cells ℚ n n} {k j : Fin n} (h : j < k) :
    lower factors k j = factors.entry k j :=
  if_pos h

@[simp]
theorem lower_self (factors : Cells ℚ n n) (k : Fin n) :
    lower factors k k = 1 := by
  simp [lower]

theorem lower_of_gt {factors : Cells ℚ n n} {k j : Fin n} (h : k < j) :
    lower factors k j = 0 := by
  simp [lower, h.not_gt, h.ne']

theorem upper_of_lt {factors : Cells ℚ n n} {k j : Fin n} (h : j < k) :
    upper factors k j = 0 :=
  if_pos h

theorem upper_of_le {factors : Cells ℚ n n} {k j : Fin n} (h : k ≤ j) :
    upper factors k j = factors.entry k j :=
  if_neg h.not_gt

theorem det_lower (factors : Cells ℚ n n) : (lower factors).det = 1 := by
  have htriangular : (lower factors).IsLowerTriangular := fun k j hkj =>
    lower_of_gt hkj
  rw [Matrix.det_of_isLowerTriangular _ htriangular]
  simp

theorem det_upper (factors : Cells ℚ n n) :
    (upper factors).det = ∏ i, factors.entry i i := by
  have htriangular : (upper factors).IsUpperTriangular := fun k j hjk =>
    upper_of_lt hjk
  rw [Matrix.det_of_isUpperTriangular htriangular]
  exact Finset.prod_congr rfl fun i _ => upper_of_le le_rfl

/-- Forward substitution solves with the lower factor. -/
theorem lower_mulVec_forward (s : Factorisation ℚ n) (b : Vector ℚ n) :
    lower s.factors *ᵥ (s.forward b).get = b.get := by
  apply mulVec_foldl
  · intro x i
    constructor
    · simp
    · intro k hk
      rcases lt_or_gt_of_ne hk with hlt | hgt
      · simp [lower_of_gt hlt, hlt.not_gt]
      · simp [lower_of_lt hgt, hgt, mul_comm]
  · exact (List.pairwise_lt_finRange n).imp fun hlt =>
      ⟨hlt.ne, lower_of_gt hlt⟩
  · exact List.mem_finRange

/-- Settling an unknown of the upper factor whose diagonal entry is not zero. -/
def settleUpper (s : Factorisation ℚ n) (x : Vector ℚ n) (i : Fin n) :
    Vector ℚ n :=
  let value := x.get i / s.factors.entry i i
  Vector.ofFn fun k =>
    if k < i then x.get k - value * s.factors.entry k i
    else if k = i then value else x.get k

theorem settles_settleUpper {s : Factorisation ℚ n} {i : Fin n}
    (hi : s.factors.entry i i ≠ 0) (x : Vector ℚ n) :
    Settles (upper s.factors) i x.get (s.settleUpper x i).get := by
  constructor
  · simp [settleUpper, upper_of_le, mul_div_cancel₀ _ hi]
  · intro k hk
    rcases lt_or_gt_of_ne hk with hlt | hgt
    · simp [settleUpper, upper_of_le hlt.le, hlt, mul_comm]
    · simp [settleUpper, upper_of_lt hgt, hgt.not_gt, hk]

theorem backward?_eq_some (s : Factorisation ℚ n)
    (hdiagonal : ∀ i, s.factors.entry i i ≠ 0) (b : Vector ℚ n) :
    s.backward? b = some ((List.finRange n).reverse.foldl s.settleUpper b) := by
  unfold backward?
  rw [← Option.pure_def, ← List.foldlM_pure]
  congr 1
  funext x i
  have hsame : ¬Scalar.same (s.factors.entry i i) 0 = true :=
    fun h => hdiagonal i (Scalar.same_eq_true_iff.1 h)
  rw [if_neg hsame]
  rfl

/-- Backward substitution solves with the upper factor when there is no zero
on its diagonal. -/
theorem exists_backward (s : Factorisation ℚ n)
    (hdiagonal : ∀ i, s.factors.entry i i ≠ 0) (b : Vector ℚ n) :
    ∃ x, s.backward? b = some x ∧ upper s.factors *ᵥ x.get = b.get := by
  refine ⟨_, s.backward?_eq_some hdiagonal b, ?_⟩
  apply mulVec_foldl
  · intro x i
    exact settles_settleUpper (hdiagonal i) x
  · exact List.pairwise_reverse.2 ((List.pairwise_lt_finRange n).imp
      fun hlt => ⟨hlt.ne', upper_of_lt hlt⟩)
  · intro i
    exact List.mem_reverse.2 (List.mem_finRange i)

end SciCalc.Factorisation
