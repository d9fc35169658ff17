import Mathlib
import SciCalc.Mat.Diagnosis
import SciCalc.Proofs.Mat.SingularValues

/-!
# The verdict on a linear system

Over the real numbers the ranks of the coefficients with and without the
constants count singular values above one tolerance, which grows with the
constants. A system that has a solution is told to have one as long as no
singular value of the coefficients lies in a band below the tolerance, whose
width depends on the solution; large constants move the tolerance past all
singular values of the coefficients.
-/

namespace SciCalc

/-! ## Real scalars -/

noncomputable instance : Scalar ℝ where
  zero := 0
  one := 1
  ofNat n := (n : ℝ)
  abs x := |x|
  less a b := decide (a < b)
  same a b := decide (a = b)
  isFinite _ := true

namespace Cells

variable {m n : ℕ}

/-- The linear map that takes the unknowns to the left sides. -/
noncomputable def operator (c : Cells ℝ m n) :
    EuclideanSpace ℝ (Fin n) →ₗ[ℝ] EuclideanSpace ℝ (Fin m) :=
  Matrix.toEuclideanLin (Matrix.of c.entry)

theorem operator_apply (c : Cells ℝ m n) (v : EuclideanSpace ℝ (Fin n))
    (i : Fin m) : c.operator v i = ∑ j, c.entry i j * v j := rfl

end Cells

/-- As many singular values as the shorter side is long, in descending order. -/
noncomputable instance : SpectralScalar ℝ where
  singularValues {m n} c :=
    (List.range (min m n)).map fun k => c.operator.singularValues k

namespace Scalar

theorem real_larger_eq_max (a b : ℝ) : Scalar.larger a b = max a b := by
  have hless : Scalar.less a b = true ↔ a < b := decide_eq_true_iff
  rw [Scalar.larger]
  split
  · next h => exact (max_eq_right (hless.1 h).le).symm
  · next h => exact (max_eq_left (not_lt.1 fun hab => h (hless.2 hab))).symm

end Scalar

namespace Cells

variable {m n : ℕ} {c : Cells ℝ m n} {ε : ℝ}

/-! ## Ranks -/

/-- Of the first numbers those that have a property count up to the first one
without it, when every number in front of one with the property has it. -/
theorem lt_countP_range_iff {p : ℕ → Bool}
    (h : ∀ i j, i ≤ j → p j = true → p i = true) {count k : ℕ} :
    k < (List.range count).countP p ↔ k < count ∧ p k = true := by
  induction count with
  | zero => simp
  | succ count ih =>
      rw [List.range_succ, List.countP_append]
      by_cases hlast : p count = true
      · have hall : (List.range count).countP p = count := by
          rw [List.countP_eq_length.2, List.length_range]
          intro i hi
          exact h i count (List.mem_range.1 hi).le hlast
        rw [hall, List.countP_singleton, if_pos hlast]
        exact ⟨fun hk => ⟨hk, h k count (Nat.le_of_lt_succ hk) hlast⟩,
          fun hk => hk.1⟩
      · rw [List.countP_singleton, if_neg hlast, Nat.add_zero, ih]
        constructor
        · rintro ⟨hk, hp⟩
          exact ⟨hk.trans (Nat.lt_succ_self count), hp⟩
        · rintro ⟨hk, hp⟩
          refine ⟨lt_of_le_of_ne (Nat.le_of_lt_succ hk) ?_, hp⟩
          rintro rfl
          exact hlast hp

theorem lt_min_of_lt_singularValues (hε : 0 ≤ ε) {k : ℕ}
    (h : ε < c.operator.singularValues k) : k < min m n := by
  have hrange := c.operator.singularValues_pos_iff_lt_finrank_range.1
    (hε.trans_lt h)
  have hrows : Module.finrank ℝ c.operator.range ≤ m := by
    simpa using Submodule.finrank_le c.operator.range
  have hcols : Module.finrank ℝ c.operator.range ≤ n := by
    simpa using LinearMap.finrank_range_le c.operator
  omega

/-- The rank passes a number when the map stretches that many directions, and
one more, by more than the tolerance. -/
theorem lt_rank_iff (hε : 0 ≤ ε) {k : ℕ} :
    k < c.rank ε ↔ ε < c.operator.singularValues k := by
  have hrank : c.rank ε = (List.range (min m n)).countP fun k =>
      Scalar.less ε (c.operator.singularValues k) := List.countP_map
  have hless : ∀ k, Scalar.less ε (c.operator.singularValues k) = true ↔
      ε < c.operator.singularValues k := fun k => decide_eq_true_iff
  rw [hrank, lt_countP_range_iff, hless]
  · exact ⟨fun h => h.2, fun h => ⟨lt_min_of_lt_singularValues hε h, h⟩⟩
  · intro i j hij hj
    rw [hless] at hj ⊢
    exact hj.trans_le (c.operator.singularValues_antitone hij)

theorem lt_rank_iff_stretches (hε : 0 ≤ ε) {k : ℕ} :
    k < c.rank ε ↔ Spectrum.Stretches c.operator ε (k + 1) :=
  (lt_rank_iff hε).trans (Spectrum.lt_singularValues_iff hε)

/-! ## A further column -/

variable {b : Fin m → ℝ}

theorem entry_withColumn_castSucc (i : Fin m) (j : Fin n) :
    (c.withColumn b).entry i j.castSucc = c.entry i j := by
  simp [withColumn]

theorem entry_withColumn_last (i : Fin m) :
    (c.withColumn b).entry i (Fin.last n) = b i := by
  simp [withColumn]

/-- Unknowns with a zero at the end. -/
noncomputable def extendZero : EuclideanSpace ℝ (Fin n) →ₗ[ℝ]
    EuclideanSpace ℝ (Fin (n + 1)) where
  toFun v := WithLp.toLp 2 (Fin.snoc (α := fun _ => ℝ) v 0)
  map_add' u v := by
    ext j
    refine Fin.lastCases ?_ (fun j => ?_) j <;> simp
  map_smul' a v := by
    ext j
    refine Fin.lastCases ?_ (fun j => ?_) j <;> simp

theorem norm_extendZero (v : EuclideanSpace ℝ (Fin n)) :
    ‖extendZero v‖ = ‖v‖ := by
  rw [EuclideanSpace.norm_eq, EuclideanSpace.norm_eq, Fin.sum_univ_castSucc]
  simp [extendZero]

theorem operator_withColumn_extendZero (v : EuclideanSpace ℝ (Fin n)) :
    (c.withColumn b).operator (extendZero v) = c.operator v := by
  ext i
  rw [operator_apply, operator_apply, Fin.sum_univ_castSucc]
  simp [extendZero, entry_withColumn_castSucc]

theorem rank_le_rank_withColumn (hε : 0 ≤ ε) :
    c.rank ε ≤ (c.withColumn b).rank ε := by
  by_contra hless
  rw [not_le, lt_rank_iff_stretches hε] at hless
  have hstretches : Spectrum.Stretches (c.withColumn b).operator ε
      ((c.withColumn b).rank ε + 1) :=
    hless.transfer extendZero (fun v => by rw [norm_extendZero])
      operator_withColumn_extendZero
  exact lt_irrefl _ ((lt_rank_iff_stretches hε).2 hstretches)

/-- The further unknown is given the value of a solution. -/
noncomputable def absorb (x : EuclideanSpace ℝ (Fin n)) :
    EuclideanSpace ℝ (Fin (n + 1)) →ₗ[ℝ] EuclideanSpace ℝ (Fin n) where
  toFun v := WithLp.toLp 2 (fun j => v j.castSucc) + v (Fin.last n) • x
  map_add' u v := by
    ext j
    simp
    ring
  map_smul' a v := by
    ext j
    simp
    ring

theorem norm_absorb_le (x : EuclideanSpace ℝ (Fin n))
    (v : EuclideanSpace ℝ (Fin (n + 1))) :
    ‖absorb x v‖ ≤ √(1 + ‖x‖ ^ 2) * ‖v‖ := by
  set front : EuclideanSpace ℝ (Fin n) := WithLp.toLp 2 fun j => v j.castSucc
    with hfront
  set last := v (Fin.last n) with hlast
  have hv : ‖v‖ ^ 2 = ‖front‖ ^ 2 + last ^ 2 := by
    rw [EuclideanSpace.norm_sq_eq, EuclideanSpace.norm_sq_eq,
      Fin.sum_univ_castSucc]
    simp [hfront, hlast]
  have htriangle : ‖absorb x v‖ ≤ ‖front‖ + |last| * ‖x‖ := by
    refine (norm_add_le _ _).trans_eq ?_
    rw [norm_smul, Real.norm_eq_abs]
  have hsquare : (‖front‖ + |last| * ‖x‖) ^ 2 ≤
      (√(1 + ‖x‖ ^ 2) * ‖v‖) ^ 2 := by
    rw [mul_pow, Real.sq_sqrt (by positivity), hv, ← sq_abs last]
    linarith [sq_nonneg (|last| - ‖front‖ * ‖x‖)]
  exact htriangle.trans (le_of_sq_le_sq hsquare (by positivity))

theorem operator_absorb {x : EuclideanSpace ℝ (Fin n)}
    (hx : ∀ i, c.operator x i = b i) (v : EuclideanSpace ℝ (Fin (n + 1))) :
    c.operator (absorb x v) = (c.withColumn b).operator v := by
  have hsum : c.operator (absorb x v) =
      c.operator (WithLp.toLp 2 fun j => v j.castSucc) +
        v (Fin.last n) • c.operator x := by
    rw [← map_smul, ← map_add]
    rfl
  ext i
  rw [hsum, operator_apply (c.withColumn b), Fin.sum_univ_castSucc]
  simp only [PiLp.add_apply, PiLp.smul_apply, hx, operator_apply,
    entry_withColumn_castSucc, entry_withColumn_last, smul_eq_mul]
  ring

/-- With the constants of a system that has a solution there are no more
singular values above the tolerance than the coefficients have above a smaller
bound. -/
theorem lt_singularValues_of_lt_rank_withColumn (hε : 0 ≤ ε)
    {x : EuclideanSpace ℝ (Fin n)} (hx : ∀ i, c.operator x i = b i) {k : ℕ}
    (h : k < (c.withColumn b).rank ε) :
    ε < c.operator.singularValues k * √(1 + ‖x‖ ^ 2) := by
  have hpos : 0 < √(1 + ‖x‖ ^ 2) := by positivity
  rw [lt_rank_iff_stretches hε] at h
  have hshrunk : ∀ v, ε / √(1 + ‖x‖ ^ 2) * ‖absorb x v‖ ≤ ε * ‖v‖ := by
    intro v
    rw [div_mul_eq_mul_div, div_le_iff₀ hpos, mul_assoc, mul_comm ‖v‖]
    exact mul_le_mul_of_nonneg_left (norm_absorb_le x v) hε
  have hstretches : Spectrum.Stretches c.operator (ε / √(1 + ‖x‖ ^ 2))
      (k + 1) := h.transfer (absorb x) hshrunk (operator_absorb hx)
  exact (div_lt_iff₀ hpos).1
    (Spectrum.lt_singularValues_of_stretches hstretches)

/-- The constants of a system that has a solution do not raise the rank as long
as no singular value is close below the tolerance. -/
theorem rank_withColumn_le_of_gap (hε : 0 < ε) {x : EuclideanSpace ℝ (Fin n)}
    (hx : ∀ i, c.operator x i = b i)
    (hgap : ∀ σ ∈ SpectralScalar.singularValues c, σ ≤ ε →
      σ * √(1 + ‖x‖ ^ 2) ≤ ε) :
    (c.withColumn b).rank ε ≤ c.rank ε := by
  by_contra hraised
  rw [not_le] at hraised
  set k := c.rank ε with hk
  have hcounted := lt_singularValues_of_lt_rank_withColumn hε.le hx hraised
  have hzero : c.operator.singularValues k ≤ ε :=
    not_lt.1 fun hlt => lt_irrefl k ((lt_rank_iff hε.le).2 hlt)
  have hpos : 0 < c.operator.singularValues k :=
    pos_of_mul_pos_left (hε.trans hcounted) (by positivity)
  have hlisted : c.operator.singularValues k ∈
      SpectralScalar.singularValues c :=
    List.mem_map_of_mem
      (List.mem_range.2 (lt_min_of_lt_singularValues le_rfl hpos))
  exact absurd (hgap _ hlisted hzero) (not_le.2 hcounted)

/-! ## Large constants -/

theorem norm_operator_sq_le (c : Cells ℝ m n) (v : EuclideanSpace ℝ (Fin n)) :
    ‖c.operator v‖ ^ 2 ≤ (∑ i, ∑ j, c.entry i j ^ 2) * ‖v‖ ^ 2 := by
  rw [EuclideanSpace.norm_sq_eq, EuclideanSpace.norm_sq_eq, Finset.sum_mul]
  apply Finset.sum_le_sum
  intro i _
  simp only [Real.norm_eq_abs, sq_abs, operator_apply]
  exact Finset.sum_mul_sq_le_sq_mul_sq _ _ _

theorem rank_eq_zero (hε : 0 ≤ ε) (h : ∑ i, ∑ j, c.entry i j ^ 2 ≤ ε ^ 2) :
    c.rank ε = 0 := by
  by_contra hrank
  refine Spectrum.not_stretches (fun v => ?_) 0
    ((lt_rank_iff_stretches hε).1 (Nat.pos_of_ne_zero hrank))
  apply le_of_sq_le_sq _ (by positivity)
  rw [mul_pow]
  exact (norm_operator_sq_le c v).trans (by gcongr)

theorem rank_withColumn_pos (hε : 0 ≤ ε) {i : Fin m} (h : ε < |b i|) :
    0 < (c.withColumn b).rank ε := by
  rw [lt_rank_iff_stretches hε]
  apply Spectrum.stretches_one (v := EuclideanSpace.single (Fin.last n) 1)
  have hvalue : (c.withColumn b).operator
      (EuclideanSpace.single (Fin.last n) 1) i = b i := by
    rw [operator_apply, Fin.sum_univ_castSucc]
    simp [entry_withColumn_last]
  calc
    ε * ‖EuclideanSpace.single (Fin.last n) (1 : ℝ)‖ = ε := by simp
    _ < |b i| := h
    _ ≤ ‖(c.withColumn b).operator (EuclideanSpace.single (Fin.last n) 1)‖ := by
      rw [← hvalue, ← Real.norm_eq_abs]
      exact PiLp.norm_apply_le _ i

/-! ## The tolerance -/

theorem mem_toList_iff {value : ℝ} :
    value ∈ c.toList ↔ ∃ i j, c.entry i j = value := by
  simp only [toList, List.mem_flatten, List.mem_map, Vector.mem_toList_iff,
    Vector.mem_iff_getElem]
  constructor
  · rintro ⟨_, ⟨_, ⟨i, hi, rfl⟩, rfl⟩, hvalue⟩
    obtain ⟨j, hj, rfl⟩ := Vector.mem_iff_getElem.1
      (Vector.mem_toList_iff.1 hvalue)
    exact ⟨⟨i, hi⟩, ⟨j, hj⟩, rfl⟩
  · rintro ⟨i, j, rfl⟩
    exact ⟨_, ⟨_, ⟨i, i.isLt, rfl⟩, rfl⟩, Vector.mem_toList_iff.2
      (Vector.mem_iff_getElem.2 ⟨j, j.isLt, rfl⟩)⟩

theorem foldl_larger_le_iff {values : List ℝ} {start bound : ℝ} :
    values.foldl (fun best x => Scalar.larger best (Scalar.abs x)) start ≤
      bound ↔ start ≤ bound ∧ ∀ x ∈ values, |x| ≤ bound := by
  induction values generalizing start with
  | nil => simp
  | cons x values ih =>
      rw [List.foldl_cons, ih, Scalar.real_larger_eq_max, max_le_iff,
        List.forall_mem_cons, and_assoc]
      rfl

theorem largest_le_iff {bound : ℝ} :
    Spectrum.largest c ≤ bound ↔
      0 ≤ bound ∧ ∀ i j, |c.entry i j| ≤ bound := by
  refine foldl_larger_le_iff.trans (and_congr_right fun _ => ?_)
  constructor
  · intro h i j
    exact h _ (mem_toList_iff.2 ⟨i, j, rfl⟩)
  · rintro h value hvalue
    obtain ⟨i, j, rfl⟩ := mem_toList_iff.1 hvalue
    exact h i j

end Cells

namespace Mat

variable {m n : ℕ} {c : Cells ℝ m n}

theorem rankTolerance_eq :
    rankTolerance c = max (Spectrum.largest c) 1 / 10 ^ 10 := by
  have hratio : (Scalar.ratio 1 (Nat.pow 10 10) : ℝ) = (10 ^ 10)⁻¹ := by
    change ((1 : ℕ) : ℝ) / ((10 ^ 10 : ℕ) : ℝ) = _
    norm_num
  rw [← Scalar.real_larger_eq_max, div_eq_inv_mul, ← hratio]
  rfl

theorem rankTolerance_pos : 0 < rankTolerance c := by
  rw [rankTolerance_eq]
  positivity

theorem le_rankTolerance (i : Fin m) (j : Fin n) :
    |c.entry i j| / 10 ^ 10 ≤ rankTolerance c := by
  rw [rankTolerance_eq]
  gcongr
  exact ((Cells.largest_le_iff.1 le_rfl).2 i j).trans (le_max_left _ _)

theorem rankTolerance_le {bound : ℝ} (hone : 1 ≤ bound)
    (h : ∀ i j, |c.entry i j| ≤ bound) : rankTolerance c ≤ bound / 10 ^ 10 := by
  rw [rankTolerance_eq]
  gcongr
  exact max_le (Cells.largest_le_iff.2 ⟨zero_le_one.trans hone, h⟩) hone

/-! ## The verdict -/

/-- The coefficients and the constants of a system. -/
def augmented (a : Mat ℝ) (constants : List ℝ)
    (h : a.rows = constants.length) : Cells ℝ a.rows (a.cols + 1) :=
  a.cells.withColumn fun i => constants.get (i.cast h)

/-- Every system has a verdict; it denies a solution where the constants raise
the rank. -/
theorem classify_eq (a : Mat ℝ) {constants : List ℝ}
    (h : a.rows = constants.length) :
    classify a constants =
      let tolerance := rankTolerance (a.augmented constants h)
      some (if a.cells.rank tolerance < (a.augmented constants h).rank tolerance
        then .noSolution
        else if a.cells.rank tolerance < a.cols then .infinitelyMany
        else .unique) := by
  have hfinite : (a.augmented constants h).allFinite = true :=
    List.all_eq_true.2 fun _ _ => rfl
  have hverdict : classify a constants =
      if (a.augmented constants h).allFinite then
        let tolerance := rankTolerance (a.augmented constants h)
        if a.cells.rank tolerance ≠ (a.augmented constants h).rank tolerance
        then some .noSolution
        else if a.cells.rank tolerance < a.cols then some .infinitelyMany
        else some .unique
      else none := dif_pos h
  have hle : a.cells.rank (rankTolerance (a.augmented constants h)) ≤
      (a.augmented constants h).rank
        (rankTolerance (a.augmented constants h)) :=
    Cells.rank_le_rank_withColumn rankTolerance_pos.le
  rw [hverdict, if_pos hfinite]
  dsimp only
  rcases hle.lt_or_eq with hraised | hequal
  · rw [if_pos hraised.ne, if_pos hraised]
  · rw [if_neg (not_not.2 hequal), if_neg hequal.not_lt]
    split <;> rfl

theorem abs_entry_le_sqrt (a : Mat ℝ) (i : Fin a.rows) (j : Fin a.cols) :
    |a.entry i j| ≤ √(∑ i, ∑ j, a.entry i j ^ 2) := by
  apply Real.abs_le_sqrt
  have hrow : a.entry i j ^ 2 ≤ ∑ j, a.entry i j ^ 2 :=
    Finset.single_le_sum (f := fun j => a.entry i j ^ 2)
      (fun _ _ => sq_nonneg _) (Finset.mem_univ j)
  refine hrow.trans ?_
  exact Finset.single_le_sum (f := fun i => ∑ j, a.entry i j ^ 2)
    (fun _ _ => Finset.sum_nonneg fun _ _ => sq_nonneg _) (Finset.mem_univ i)

/-- Constants that are large against the coefficients raise the tolerance over
all singular values of the coefficients. -/
theorem classify_eq_noSolution_of_large (a : Mat ℝ) {constants : List ℝ}
    (h : a.rows = constants.length) {b : ℝ} (hb : b ∈ constants)
    (hlarge : 10 ^ 10 * (1 + √(∑ i, ∑ j, a.entry i j ^ 2)) ≤ |b|) :
    classify a constants = some .noSolution := by
  obtain ⟨k, hk, rfl⟩ := List.mem_iff_getElem.1 hb
  have hne : (Finset.univ : Finset (Fin constants.length)).Nonempty :=
    ⟨⟨k, hk⟩, Finset.mem_univ _⟩
  obtain ⟨top, -, htop⟩ :=
    Finset.exists_max_image Finset.univ (fun i => |constants.get i|) hne
  set norm := √(∑ i, ∑ j, a.entry i j ^ 2) with hnorm
  set tolerance := rankTolerance (a.augmented constants h) with htolerance
  have hnonneg : 0 ≤ norm := Real.sqrt_nonneg _
  have hbound : 10 ^ 10 * (1 + norm) ≤ |constants.get top| :=
    hlarge.trans (htop ⟨k, hk⟩ (Finset.mem_univ _))
  have hbelow : tolerance ≤ |constants.get top| / 10 ^ 10 := by
    apply rankTolerance_le
    · linarith
    · intro i j
      refine Fin.lastCases ?_ (fun j => ?_) j
      · rw [augmented, Cells.entry_withColumn_last]
        exact htop _ (Finset.mem_univ _)
      · rw [augmented, Cells.entry_withColumn_castSucc]
        exact (a.abs_entry_le_sqrt i j).trans (by linarith)
  have habove : |constants.get top| / 10 ^ 10 ≤ tolerance := by
    have hcell := le_rankTolerance (c := a.augmented constants h)
      (top.cast h.symm) (Fin.last a.cols)
    rwa [augmented, Cells.entry_withColumn_last] at hcell
  have hzero : a.cells.rank tolerance = 0 := by
    apply Cells.rank_eq_zero rankTolerance_pos.le
    rw [← Real.sqrt_le_left rankTolerance_pos.le]
    have hover : 1 + norm ≤ |constants.get top| / 10 ^ 10 := by
      rw [le_div_iff₀' (by positivity)]
      exact hbound
    exact (le_add_of_nonneg_left zero_le_one).trans (hover.trans habove)
  have hpos : 0 < (a.augmented constants h).rank tolerance := by
    apply Cells.rank_withColumn_pos rankTolerance_pos.le (i := top.cast h.symm)
    have htop_pos : 0 < |constants.get top| := by
      refine lt_of_lt_of_le ?_ hbound
      positivity
    exact hbelow.trans_lt (div_lt_self htop_pos (by norm_num))
  rw [classify_eq a h]
  simp only [← htolerance, hzero, if_pos hpos]

end Mat

/-- A system is denied a solution that it has only for a singular value of the
coefficients that counts as zero and would count for more with the tolerance
divided by the length of the solution with a further one. In particular every
verdict on a system with a solution is right when all singular values other than
zero are above the tolerance. But constants that are large enough against the
coefficients always have the verdict that there is no solution. -/
theorem Mat.verdict_on_solvable_system (a : Mat ℝ) (constants : List ℝ)
    (h : a.rows = constants.length) :
    (∀ x : Fin a.cols → ℝ,
      (∀ i, ∑ j, a.entry i j * x j = constants.get (i.cast h)) →
      (∀ σ ∈ SpectralScalar.singularValues a.cells,
        σ ≤ rankTolerance (a.augmented constants h) →
        σ * √(1 + ∑ j, x j ^ 2) ≤ rankTolerance (a.augmented constants h)) →
      ∃ kind, classify a constants = some kind ∧ kind ≠ .noSolution) ∧
    ((∃ b ∈ constants, 10 ^ 10 * (1 + √(∑ i, ∑ j, a.entry i j ^ 2)) ≤ |b|) →
      classify a constants = some .noSolution) := by
  constructor
  · intro x hx hgap
    have hequal : ¬a.cells.rank (rankTolerance (a.augmented constants h)) <
        (a.augmented constants h).rank
          (rankTolerance (a.augmented constants h)) := by
      apply not_lt.2
      apply Cells.rank_withColumn_le_of_gap rankTolerance_pos
        (x := WithLp.toLp 2 x) hx
      simpa only [EuclideanSpace.norm_sq_eq, Real.norm_eq_abs, sq_abs]
        using hgap
    refine ⟨_, classify_eq a h, ?_⟩
    simp only [if_neg hequal]
    split <;> decide
  · rintro ⟨b, hb, hlarge⟩
    exact classify_eq_noSolution_of_large a h hb hlarge

/-- Coefficients that keep the first unknown and lose the second one. -/
noncomputable def Cells.projection : Cells ℝ 2 2 :=
  Cells.ofFn ![![1, 0], ![0, 0]]

namespace Cells

theorem sum_projection (x : Fin 2 → ℝ) (i : Fin 2) :
    ∑ j, projection.entry i j * x j = ![x 0, 0] i := by
  rw [Fin.sum_univ_two]
  fin_cases i <;> simp [projection]

theorem operator_projection (v : EuclideanSpace ℝ (Fin 2)) :
    projection.operator v = WithLp.toLp 2 ![v 0, 0] := by
  ext i
  exact sum_projection v i

/-- The projection has the singular values one and zero. -/
theorem singularValues_projection :
    1 ≤ projection.operator.singularValues 0 ∧
      projection.operator.singularValues 1 = 0 := by
  constructor
  · apply le_of_forall_lt
    intro bound hbound
    apply Spectrum.lt_singularValues_of_stretches
    apply Spectrum.stretches_one (v := EuclideanSpace.single 0 1)
    have hkept : projection.operator (EuclideanSpace.single 0 1) =
        EuclideanSpace.single 0 1 := by
      rw [operator_projection]
      ext i
      fin_cases i <;> simp
    simpa [hkept] using hbound
  · apply le_antisymm _ (projection.operator.singularValues_nonneg 1)
    by_contra hpos
    rw [not_le] at hpos
    have hinjective : Function.Injective projection.operator := by
      rw [LinearMap.injective_iff_forall_lt_finrank_singularValues_pos]
      intro k hk
      rw [finrank_euclideanSpace_fin] at hk
      exact hpos.trans_le (projection.operator.singularValues_antitone
        (Nat.le_of_lt_succ hk))
    have hlost : projection.operator (EuclideanSpace.single 1 1) =
        projection.operator 0 := by
      rw [operator_projection, operator_projection]
      simp
    have hsame := hinjective hlost
    simpa using congrArg (fun v : EuclideanSpace ℝ (Fin 2) => v 1) hsame

theorem size_projection :
    10 ^ 10 * (1 + √(∑ i, ∑ j, projection.entry i j ^ 2)) = 2 * 10 ^ 10 := by
  norm_num [projection, Fin.sum_univ_two]

end Cells

/-- Small and large constants for the same coefficients. -/
theorem Mat.verdict_by_size_of_constants :
    (∃ kind, classify ⟨2, 2, .projection, two_pos, two_pos⟩ [3, 0] =
      some kind ∧ kind ≠ .noSolution) ∧
    classify ⟨2, 2, .projection, two_pos, two_pos⟩ [0, -10 ^ 12] =
      some .noSolution := by
  constructor
  · obtain ⟨hsound, -⟩ := Mat.verdict_on_solvable_system
      ⟨2, 2, .projection, two_pos, two_pos⟩ [3, 0] rfl
    have hsolved : ∀ i : Fin 2, ∑ j, Cells.projection.entry i j *
        (![3, 0] : Fin 2 → ℝ) j = [3, 0].get i := by
      intro i
      rw [Cells.sum_projection]
      fin_cases i <;> rfl
    refine hsound ![3, 0] hsolved ?_
    intro σ hσ hsmall
    have htolerance : rankTolerance (augmented
        ⟨2, 2, .projection, two_pos, two_pos⟩ [3, 0] rfl) ≤ 3 / 10 ^ 10 := by
      apply rankTolerance_le (by norm_num)
      intro i j
      refine Fin.lastCases ?_ (fun j => ?_) j
      · rw [augmented, Cells.entry_withColumn_last]
        fin_cases i <;> simp
      · rw [augmented, Cells.entry_withColumn_castSucc]
        fin_cases i <;> fin_cases j <;> simp [Cells.projection]
    obtain ⟨hfirst, hsecond⟩ := Cells.singularValues_projection
    obtain ⟨k, hk, rfl⟩ := List.mem_map.1 hσ
    have hcount : k < 2 := List.mem_range.1 hk
    interval_cases k
    · exact absurd (hfirst.trans (hsmall.trans htolerance)) (by norm_num)
    · rw [hsecond, zero_mul]
      exact rankTolerance_pos.le
  · obtain ⟨-, hdenied⟩ := Mat.verdict_on_solvable_system
      ⟨2, 2, .projection, two_pos, two_pos⟩ [0, -10 ^ 12] rfl
    apply hdenied
    refine ⟨-10 ^ 12, by simp, ?_⟩
    refine Cells.size_projection.trans_le ?_
    norm_num

/-- This system has a solution, and the verdict that it has none. -/
theorem Mat.solvable_system_denied :
    (∃ x : Fin 2 → ℝ, ∀ i : Fin 2,
      ∑ j, Cells.projection.entry i j * x j = [10 ^ 11, 0].get i) ∧
    classify ⟨2, 2, .projection, two_pos, two_pos⟩ [10 ^ 11, 0] =
      some .noSolution := by
  constructor
  · refine ⟨![10 ^ 11, 0], fun i => ?_⟩
    rw [Cells.sum_projection]
    fin_cases i <;> rfl
  · apply classify_eq_noSolution_of_large _ rfl List.mem_cons_self
    refine Cells.size_projection.trans_le ?_
    norm_num

end SciCalc
