import Mathlib
import SciCalc.Proofs.Mat.BackSubstitution
import SciCalc.Proofs.Mat.Pivoting

/-!
# Forward elimination

One column of the elimination exchanges two rows and takes multiples of one row
from the rows below it. Both steps keep the solutions, and neither disturbs the
zeros of the columns that are already clear. By induction over the columns a
finished elimination leaves triangular rows with the solutions of the original
system, and one that comes to a stop has found no large entry in its column.
-/

namespace SciCalc

theorem Cells.entry_swapRows_eq {R : Type} {m n : ℕ} (c : Cells R m n)
    (p q i : Fin m) (j : Fin n) :
    (c.swapRows p q).entry i j = c.entry (Equiv.swap p q i) j := by
  rw [Cells.entry_swapRows, Equiv.swap_apply_def]
  split
  · rfl
  · split <;> rfl

namespace Elimination

/-! ## What one column can do -/

section AnyScalar

variable {R : Type} [Scalar R] {n : ℕ}

theorem entry_clearBelow (rows : Cells R n (n + 1)) (i k : Fin n)
    (j : Fin (n + 1)) :
    (clearBelow rows i).entry k j =
      if k ≤ i ∨ Scalar.same (multiplier rows i k) 0 = true ∨ j < i.castSucc
      then rows.entry k j
      else rows.entry k j - multiplier rows i k * rows.entry i j := by
  unfold clearBelow
  simp only [Cells.entry, Cells.row, Vector.getElem_ofFn, Fin.getElem_fin,
    Fin.eta]
  by_cases hk : k ≤ i
  · simp [hk]
  · by_cases hsame : Scalar.same (multiplier rows i k) 0 = true
    · simp [hk, hsame]
    · simp [hk, hsame]

/-- Bringing the pivot up exchanges its row with row `i`. -/
theorem entry_raisePivot (s : Elimination R n) (i k : Fin n)
    (j : Fin (n + 1)) :
    (s.raisePivot i).rows.entry k j =
      s.rows.entry (Equiv.swap i
        (Cells.pivotRow (fun k => s.rows.entry k i.castSucc) i) k) j :=
  Cells.entry_swapRows_eq s.rows i _ k j

theorem column_eq_ok_iff {s t : Elimination R n} {i : Fin n} :
    s.column i = .ok t ↔
      Scalar.less (Scalar.abs ((s.raisePivot i).rows.entry i i.castSucc))
          pivotTolerance = false ∧
        t = { s.raisePivot i with
          rows := clearBelow (s.raisePivot i).rows i } := by
  unfold column
  dsimp only
  split
  · next hless =>
      constructor
      · intro h
        cases h
      · rintro ⟨hlarge, -⟩
        rw [hlarge] at hless
        cases hless
  · next hless =>
      constructor
      · intro h
        cases h
        exact ⟨eq_false_of_ne_true hless, rfl⟩
      · rintro ⟨-, rfl⟩
        rfl

theorem column_eq_error_iff {s : Elimination R n} {stop : Stop R n}
    {i : Fin n} :
    s.column i = .error stop ↔
      Scalar.less (Scalar.abs ((s.raisePivot i).rows.entry i i.castSucc))
          pivotTolerance = true ∧
        stop = ⟨s.raisePivot i, i⟩ := by
  unfold column
  dsimp only
  split
  · next hless =>
      constructor
      · intro h
        cases h
        exact ⟨hless, rfl⟩
      · rintro ⟨-, rfl⟩
        rfl
  · next hless =>
      constructor
      · intro h
        cases h
      · rintro ⟨hsmall, -⟩
        exact absurd hsmall hless

end AnyScalar

/-! ## What a column keeps over exact numbers -/

section Exact

variable {n : ℕ}

/-- What the equation of a row is off by. -/
def residual (rows : Cells ℚ n (n + 1)) (x : Fin n → ℚ) (i : Fin n) : ℚ :=
  ∑ j, rows.entry i j.castSucc * x j - rows.entry i (Fin.last n)

theorem solves_iff_residual (rows : Cells ℚ n (n + 1)) (x : Fin n → ℚ) :
    Solves rows x ↔ ∀ i, residual rows x i = 0 :=
  forall_congr' fun _ => sub_eq_zero.symm

theorem solves_swapRows (rows : Cells ℚ n (n + 1)) (p q : Fin n)
    (x : Fin n → ℚ) : Solves (rows.swapRows p q) x ↔ Solves rows x := by
  unfold Solves
  simp only [Cells.entry_swapRows_eq]
  exact (Equiv.swap p q).forall_congr_right (q := fun i =>
    ∑ j, rows.entry i j.castSucc * x j = rows.entry i (Fin.last n))

/-- A row that is skipped has multiplier zero, and the cells that are left out
would lose multiples of zero: the rows below change by one rule. -/
theorem entry_clearBelow_of_zeros {rows : Cells ℚ n (n + 1)} {i : Fin n}
    (hzeros : ∀ j < i.castSucc, rows.entry i j = 0) (k : Fin n)
    (j : Fin (n + 1)) :
    (clearBelow rows i).entry k j =
      if k ≤ i then rows.entry k j
      else rows.entry k j - multiplier rows i k * rows.entry i j := by
  rw [entry_clearBelow]
  by_cases hk : k ≤ i
  · rw [if_pos (Or.inl hk), if_pos hk]
  · rw [if_neg hk]
    split
    · next hkept =>
        rcases hkept with hki | hsame | hj
        · exact absurd hki hk
        · rw [Scalar.same_eq_true_iff.1 hsame, zero_mul, sub_zero]
        · rw [hzeros j hj, mul_zero, sub_zero]
    · rfl

theorem residual_clearBelow {rows : Cells ℚ n (n + 1)} {i : Fin n}
    (hzeros : ∀ j < i.castSucc, rows.entry i j = 0) (x : Fin n → ℚ)
    (k : Fin n) :
    residual (clearBelow rows i) x k =
      if k ≤ i then residual rows x k
      else residual rows x k - multiplier rows i k * residual rows x i := by
  unfold residual
  simp only [entry_clearBelow_of_zeros hzeros]
  split
  · rfl
  · simp only [sub_mul, Finset.sum_sub_distrib, mul_sub, Finset.mul_sum,
      mul_assoc]
    ring

theorem solves_clearBelow {rows : Cells ℚ n (n + 1)} {i : Fin n}
    (hzeros : ∀ j < i.castSucc, rows.entry i j = 0) (x : Fin n → ℚ) :
    Solves (clearBelow rows i) x ↔ Solves rows x := by
  simp only [solves_iff_residual, residual_clearBelow hzeros]
  constructor
  · intro hcleared k
    have hpivot := hcleared i
    rw [if_pos (le_refl i)] at hpivot
    have hk := hcleared k
    split at hk
    · exact hk
    · rwa [hpivot, mul_zero, sub_zero] at hk
  · intro hrows k
    rw [hrows k, hrows i, mul_zero, sub_zero, ite_self]

/-- The pivot that has been brought up is the largest entry from its row
down. -/
theorem abs_entry_raisePivot_le (s : Elimination ℚ n) {i k : Fin n}
    (hk : i ≤ k) :
    |(s.raisePivot i).rows.entry k i.castSucc| ≤
      |(s.raisePivot i).rows.entry i i.castSucc| := by
  rw [entry_raisePivot, entry_raisePivot, Equiv.swap_apply_left]
  apply Cells.abs_le_abs_pivotRow fun k => s.rows.entry k i.castSucc
  rw [Equiv.swap_apply_def]
  split
  · exact Cells.le_pivotRow _ i
  · split
    · exact le_refl i
    · exact hk

/-- A column is cleared by a pivot that reaches the tolerance. -/
theorem tolerance_le_of_column_ok {s t : Elimination ℚ n} {i : Fin n}
    (hcolumn : s.column i = .ok t) :
    1 / 10 ^ 10 ≤ |(s.raisePivot i).rows.entry i i.castSucc| := by
  have hlarge := (column_eq_ok_iff.1 hcolumn).1
  by_contra hnot
  have hsmall := (Scalar.below_tolerance_iff _).2 (not_le.1 hnot)
  rw [pivotTolerance, hsmall] at hlarge
  cases hlarge

/-- The first `count` columns of the system `start` have been eliminated and
`rows` are left: those columns are clear below the diagonal, every pivot
reached the tolerance, and no solution was lost or gained. -/
structure Eliminated (start : Cells ℚ n (n + 1)) (count : ℕ)
    (rows : Cells ℚ n (n + 1)) : Prop where
  cleared : ∀ j k : Fin n, j.val < count → j < k → rows.entry k j.castSucc = 0
  pivot : ∀ j : Fin n, j.val < count →
    1 / 10 ^ 10 ≤ |rows.entry j j.castSucc|
  solves_iff : ∀ x, Solves rows x ↔ Solves start x

namespace Eliminated

variable {start rows : Cells ℚ n (n + 1)}

theorem refl (start : Cells ℚ n (n + 1)) : Eliminated start 0 start :=
  ⟨fun _ _ hj => absurd hj (Nat.not_lt_zero _),
    fun _ hj => absurd hj (Nat.not_lt_zero _), fun _ => Iff.rfl⟩

theorem zeros_left {i : Fin n} (hrows : Eliminated start i rows) :
    ∀ j < i.castSucc, rows.entry i j = 0 := by
  intro j hj
  have hlt : j.val < i.val := hj
  exact hrows.cleared ⟨j.val, hlt.trans i.isLt⟩ i hlt hlt

/-- Rows from the current one down may be exchanged. -/
theorem swapRows {i p : Fin n} (hrows : Eliminated start i rows) (hp : i ≤ p) :
    Eliminated start i (rows.swapRows i p) where
  cleared := by
    intro j k hj hk
    have hji : j < i := hj
    rw [Cells.entry_swapRows_eq]
    apply hrows.cleared j _ hj
    rw [Equiv.swap_apply_def]
    split
    · exact hji.trans_le hp
    · split
      · exact hji
      · exact hk
  pivot := by
    intro j hj
    have hji : j < i := hj
    rw [Cells.entry_swapRows_eq,
      Equiv.swap_apply_of_ne_of_ne hji.ne (hji.trans_le hp).ne]
    exact hrows.pivot j hj
  solves_iff := by
    intro x
    rw [solves_swapRows, hrows.solves_iff]

/-- Clearing a column below a large pivot makes it one of the clear columns. -/
theorem clearBelow {i : Fin n} (hrows : Eliminated start i rows)
    (hpivot : 1 / 10 ^ 10 ≤ |rows.entry i i.castSucc|) :
    Eliminated start (i + 1) (clearBelow rows i) where
  cleared := by
    intro j k hj hk
    rw [entry_clearBelow_of_zeros hrows.zeros_left]
    rcases Nat.lt_succ_iff_lt_or_eq.1 hj with hji | hji
    · rw [hrows.cleared j k hji hk, hrows.cleared j i hji hji, mul_zero,
        sub_zero, ite_self]
    · obtain rfl : j = i := Fin.ext hji
      have hne : rows.entry j j.castSucc ≠ 0 := by
        intro hzero
        rw [hzero, abs_zero] at hpivot
        exact absurd hpivot (by norm_num)
      rw [if_neg hk.not_ge, multiplier, div_mul_cancel₀ _ hne, sub_self]
  pivot := by
    intro j hj
    have hji : j ≤ i := Nat.lt_succ_iff.1 hj
    rw [entry_clearBelow_of_zeros hrows.zeros_left, if_pos hji]
    rcases hji.lt_or_eq with hlt | rfl
    · exact hrows.pivot j hlt
    · exact hpivot
  solves_iff := by
    intro x
    rw [solves_clearBelow hrows.zeros_left, hrows.solves_iff]

theorem raisePivot {s : Elimination ℚ n} {i : Fin n}
    (hs : Eliminated start i s.rows) :
    Eliminated start i (s.raisePivot i).rows :=
  hs.swapRows (Cells.le_pivotRow _ i)

/-- One column of the elimination adds one clear column. -/
theorem column {s t : Elimination ℚ n} {i : Fin n}
    (hs : Eliminated start i s.rows) (hcolumn : s.column i = .ok t) :
    Eliminated start (i + 1) t.rows := by
  have hpivot := tolerance_le_of_column_ok hcolumn
  obtain ⟨-, rfl⟩ := column_eq_ok_iff.1 hcolumn
  exact hs.raisePivot.clearBelow hpivot

/-- Consecutive columns add as many clear columns. When they come to a stop,
the columns in front of the one that stopped them are clear. -/
theorem columns {indices : List (Fin n)} {count : ℕ} {s : Elimination ℚ n}
    (hindices : indices.map Fin.val = List.range' count indices.length)
    (hs : Eliminated start count s.rows) :
    (∀ t, s.columns indices = .ok t →
      Eliminated start (count + indices.length) t.rows) ∧
      ∀ stop, s.columns indices = .error stop →
        ∃ t : Elimination ℚ n, Eliminated start stop.column t.rows ∧
          t.column stop.column = .error stop := by
  induction indices generalizing count s with
  | nil =>
      constructor
      · intro t ht
        cases ht
        exact hs
      · intro stop hstop
        cases hstop
  | cons i rest ih =>
      rw [List.map_cons, List.length_cons, List.range'_succ] at hindices
      obtain ⟨hi, hrest⟩ := List.cons.inj hindices
      subst hi
      rw [Elimination.columns]
      cases hcolumn : s.column i with
      | error stop =>
          constructor
          · intro t ht
            cases ht
          · intro stop' hstop
            cases hstop
            obtain ⟨-, rfl⟩ := column_eq_error_iff.1 hcolumn
            exact ⟨s, hs, hcolumn⟩
      | ok next =>
          obtain ⟨hok, herror⟩ := ih hrest (hs.column hcolumn)
          refine ⟨?_, herror⟩
          intro t ht
          have hlength : i.val + (i :: rest).length =
              i.val + 1 + rest.length := by
            rw [List.length_cons]
            omega
          rw [hlength]
          exact hok t ht

end Eliminated

end Exact

end Elimination

end SciCalc
