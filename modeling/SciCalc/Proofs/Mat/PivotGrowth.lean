import Mathlib
import SciCalc.Proofs.Mat.LinearSystem
import SciCalc.Proofs.Outcome

/-!
# Growth under partial pivoting

A column is cleared by the largest entry left in it, so a row is reduced by no
more than the row of the pivot and no entry is more than doubled. By induction
over the columns every multiplier that is used is at most one, and the entries
stay within a power of two of the largest one of the system.
-/

namespace SciCalc

open Outcome

namespace Elimination

/-! ## Eliminations by the columns they have processed -/

section AnyScalar

variable {R : Type} [Scalar R] {n : ℕ} {coefficients : Cells R n n}
  {constants : Fin n → R}

/-- The elimination of a system when its first `count` columns have been
processed. -/
def processed (coefficients : Cells R n n) (constants : Fin n → R)
    (count : ℕ) : Except (Stop R n) (Elimination R n) :=
  (start coefficients constants).columns ((List.finRange n).take count)

theorem columns_append (s : Elimination R n) (is js : List (Fin n)) :
    s.columns (is ++ js) = (s.columns is >>= fun t => t.columns js) := by
  induction is generalizing s with
  | nil => rfl
  | cons i is ih =>
      rw [List.cons_append, columns, columns]
      cases s.column i with
      | error stop => rfl
      | ok t => exact ih t

/-- Forward elimination goes on from where it is after some columns. -/
theorem run_eq_processed (count : ℕ) :
    run coefficients constants =
      (processed coefficients constants count >>= fun t =>
        t.columns ((List.finRange n).drop count)) := by
  rw [run, processed, ← columns_append, List.take_append_drop]

theorem processed_succ (i : Fin n) :
    processed coefficients constants (i + 1) =
      (processed coefficients constants i >>= fun s => s.column i) := by
  have hcolumn : ∀ s : Elimination R n, s.columns [i] = s.column i := by
    intro s
    rw [columns]
    exact bind_ok (s.column i)
  have htake : (List.finRange n).take (i + 1) =
      (List.finRange n).take i ++ [i] := by
    rw [List.take_add_one]
    simp
  rw [processed, htake, columns_append, processed]
  simp only [hcolumn]

/-- What holds at the start and is kept by every column holds as long as no
column has stopped the elimination. -/
theorem processed_induction {P : ℕ → Elimination R n → Prop}
    (hstart : P 0 (start coefficients constants))
    (hcolumn : ∀ (i : Fin n) (s t : Elimination R n),
      processed coefficients constants i = .ok s → P i s →
        s.column i = .ok t → P (i + 1) t)
    {count : ℕ} (hcount : count ≤ n) {t : Elimination R n}
    (ht : processed coefficients constants count = .ok t) : P count t := by
  induction count generalizing t with
  | zero =>
      cases ht
      exact hstart
  | succ count ih =>
      obtain ⟨s, hs, hlast⟩ :=
        bind_eq_ok_iff.1 ((processed_succ ⟨count, hcount⟩).symm.trans ht)
      exact hcolumn ⟨count, hcount⟩ s t hs (ih (by omega) hs) hlast

end AnyScalar

/-! ## What pivoting bounds -/

section Exact

variable {n : ℕ} {coefficients : Cells ℚ n n} {constants : Fin n → ℚ}
  {rows : Cells ℚ n (n + 1)} {s t : Elimination ℚ n} {i : Fin n} {bound : ℚ}

/-- Column `i` of these rows can be cleared safely: the pivot is neither small
nor smaller than an entry it clears, and no multiplier is above one. -/
structure SafePivot (rows : Cells ℚ n (n + 1)) (i : Fin n) : Prop where
  tolerance_le : 1 / 10 ^ 10 ≤ |rows.entry i i.castSucc|
  largest : ∀ k, i < k → |rows.entry k i.castSucc| ≤ |rows.entry i i.castSucc|
  multiplier_le : ∀ k, i < k → |multiplier rows i k| ≤ 1

theorem safePivot_of_column_ok (hcolumn : s.column i = .ok t) :
    SafePivot (s.raisePivot i).rows i where
  tolerance_le := tolerance_le_of_column_ok hcolumn
  largest := fun _ hk => abs_entry_raisePivot_le s hk.le
  multiplier_le := by
    intro k hk
    rw [multiplier, abs_div]
    exact div_le_one_of_le₀ (abs_entry_raisePivot_le s hk.le) (abs_nonneg _)

/-- No coefficient is larger than the bound. -/
def Within (bound : ℚ) (rows : Cells ℚ n (n + 1)) : Prop :=
  ∀ k j : Fin n, |rows.entry k j.castSucc| ≤ bound

theorem Within.raisePivot (h : Within bound s.rows) (i : Fin n) :
    Within bound (s.raisePivot i).rows := by
  intro k j
  rw [entry_raisePivot]
  exact h _ j

/-- A row loses at most as much as the row of the pivot has. -/
theorem Within.clearBelow (h : Within bound rows) (hi : SafePivot rows i) :
    Within (2 * bound) (clearBelow rows i) := by
  intro k j
  have hentry := h k j
  have hpivot := h i j
  have hnonneg := (abs_nonneg _).trans hentry
  rw [entry_clearBelow]
  split
  · linarith
  · next hbelow =>
    push Not at hbelow
    calc
      |rows.entry k j.castSucc -
          multiplier rows i k * rows.entry i j.castSucc| ≤
          |rows.entry k j.castSucc| +
            |multiplier rows i k * rows.entry i j.castSucc| := abs_sub _ _
      _ = |rows.entry k j.castSucc| +
            |multiplier rows i k| * |rows.entry i j.castSucc| := by
        rw [abs_mul]
      _ ≤ bound + 1 * bound := by
        gcongr
        exact hi.multiplier_le k hbelow.1
      _ = 2 * bound := by ring

theorem Within.column (h : Within bound s.rows)
    (hcolumn : s.column i = .ok t) : Within (2 * bound) t.rows := by
  have hsafe := safePivot_of_column_ok hcolumn
  obtain ⟨-, rfl⟩ := column_eq_ok_iff.1 hcolumn
  exact (h.raisePivot i).clearBelow hsafe

theorem within_processed {count : ℕ} (hcount : count ≤ n)
    (ht : processed coefficients constants count = .ok t)
    (hbound : ∀ k j, |coefficients.entry k j| ≤ bound) :
    Within (2 ^ count * bound) t.rows := by
  refine processed_induction (P := fun count t =>
    Within (2 ^ count * bound) t.rows) ?_ ?_ hcount ht
  · intro k j
    simpa [start, augment] using hbound k j
  · intro i s t _ hs hcolumn
    rw [pow_succ', mul_assoc]
    exact hs.column hcolumn

theorem eliminated_processed {count : ℕ} (hcount : count ≤ n)
    (ht : processed coefficients constants count = .ok t) :
    Eliminated (augment coefficients constants) count t.rows :=
  processed_induction (P := fun count t =>
      Eliminated (augment coefficients constants) count t.rows)
    (Eliminated.refl _) (fun _ _ _ _ hs hcolumn => hs.column hcolumn) hcount ht

/-- Every column that has been processed was cleared safely. -/
theorem safePivot_processed {count : ℕ} (hcount : count ≤ n)
    (ht : processed coefficients constants count = .ok t) :
    ∀ i : Fin n, i.val < count →
      ∃ s, processed coefficients constants i = .ok s ∧
        SafePivot (s.raisePivot i).rows i := by
  refine processed_induction (P := fun count _ => ∀ i : Fin n, i.val < count →
    ∃ s, processed coefficients constants i = .ok s ∧
      SafePivot (s.raisePivot i).rows i) ?_ ?_ hcount ht
  · intro i hi
    exact absurd hi (Nat.not_lt_zero _)
  · intro i s t hs hearlier hcolumn j hj
    rcases Nat.lt_succ_iff_lt_or_eq.1 hj with hji | hji
    · exact hearlier j hji
    · obtain rfl : j = i := Fin.ext hji
      exact ⟨s, hs, safePivot_of_column_ok hcolumn⟩

end Exact

end Elimination

namespace Mat

open Elimination

/-- When the elimination that solves a system has processed its first `count`
columns, it has only used pivots that reach the tolerance and are not smaller
than the entries they cleared, and multipliers that are not above one. Those
columns are clear below the diagonal, and a bound on the entries of the matrix
has at most been doubled for each of them. -/
theorem pivoting_bounds_growth (a : Mat ℚ) (b : List ℚ)
    (hsquare : a.rows = a.cols) (hlength : b.length = a.rows) (count : ℕ)
    (hcount : count ≤ a.rows) (t : Elimination ℚ a.rows)
    (ht : processed (a.squareCells hsquare) (fun i => b[i.cast hlength.symm])
      count = .ok t) :
    run (a.squareCells hsquare) (fun i => b[i.cast hlength.symm]) =
        t.columns ((List.finRange a.rows).drop count) ∧
      (∀ i : Fin a.rows, i.val < count →
        ∃ s, processed (a.squareCells hsquare)
            (fun i => b[i.cast hlength.symm]) i = .ok s ∧
          SafePivot (s.raisePivot i).rows i) ∧
      (∀ j k : Fin a.rows, j.val < count → j < k →
        t.rows.entry k j.castSucc = 0) ∧
      ∀ bound, (∀ i j, |a.entry i j| ≤ bound) →
        ∀ k j : Fin a.rows, |t.rows.entry k j.castSucc| ≤ 2 ^ count * bound := by
  refine ⟨?_, safePivot_processed hcount ht,
    (eliminated_processed hcount ht).cleared, ?_⟩
  · rw [run_eq_processed count, ht, ok_bind]
  · intro bound hbound
    apply within_processed hcount ht
    intro k j
    rw [squareCells, Cells.entry_ofFn]
    exact hbound k _

/-- No bound that is smaller would do: the last entry of this matrix, whose
entries are at most one, doubles in both columns. -/
theorem pivoting_reaches_growth :
    let a : Mat ℚ := ⟨3, 3, Cells.ofFn ![![1, 0, 1], ![-1, 1, 1], ![-1, -1, 1]],
      three_pos, three_pos⟩
    ∃ t, processed (a.squareCells rfl) (fun i => [1, 2, 3][i]) 2 = .ok t ∧
      t.rows.entry 2 2 = 4 ∧ t.rows.entry 2 0 = 0 ∧ t.rows.entry 2 1 = 0 ∧
      (∃ s, processed (a.squareCells rfl) (fun i => [1, 2, 3][i]) 1 = .ok s ∧
        SafePivot (s.raisePivot 1).rows 1) ∧
      ∀ k j : Fin 3, |t.rows.entry k j.castSucc| ≤ 2 ^ 2 * 1 := by
  intro a
  have hprocessed : ((processed (a.squareCells rfl) (fun i => [1, 2, 3][i])
      2).map fun t => t.rows.entry 2 2).mapError (fun _ => ()) = .ok 4 := by
    decide +kernel
  obtain ⟨t, ht, hlast⟩ := map_eq_ok_iff.1 (mapError_eq_ok_iff.1 hprocessed)
  obtain ⟨-, hsafe, hclear, hgrowth⟩ :=
    pivoting_bounds_growth a [1, 2, 3] rfl rfl 2 (by decide) t ht
  refine ⟨t, ht, hlast, hclear 0 2 (by decide) (by decide),
    hclear 1 2 (by decide) (by decide), hsafe 1 (by decide),
    hgrowth 1 ?_⟩
  intro i j
  fin_cases i <;> fin_cases j <;> norm_num [a, entry]

end Mat

end SciCalc
