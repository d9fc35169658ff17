import Mathlib
import SciCalc.Proofs.Mat.ForwardElimination
import SciCalc.Proofs.Mat.Substitution

/-!
# The factors of an elimination

Every column of the matrix is treated as a right-hand side of the lower factor
while that factor is being built: a step of the elimination settles one more
entry in each of them. So the factors multiply to the matrix with its rows in
the order of the pivots, whatever the pivots are, and a column without a pivot
is no exception.
-/

namespace SciCalc.Factorisation

open Matrix

variable {n : ℕ}

/-! ## Exchanged rows -/

theorem swapRows_self (c : Cells ℚ n n) (p : Fin n) : c.swapRows p p = c := by
  apply Cells.ext
  intro i j
  rw [Cells.entry_swapRows_eq, Equiv.swap_self, Equiv.refl_apply]

/-- The cells with their rows exchanged one pair after the other. -/
def exchange (swaps : List (Fin n × Fin n)) (c : Cells ℚ n n) : Cells ℚ n n :=
  swaps.foldl (fun c (p, q) => c.swapRows p q) c

/-- The row of the original cells that an exchanged row comes from. -/
def origin (swaps : List (Fin n × Fin n)) : Equiv.Perm (Fin n) :=
  (swaps.map fun pair => Equiv.swap pair.1 pair.2).prod

theorem entry_exchange (swaps : List (Fin n × Fin n)) (c : Cells ℚ n n)
    (k j : Fin n) : (exchange swaps c).entry k j = c.entry (origin swaps k) j := by
  induction swaps generalizing c with
  | nil => rfl
  | cons pair swaps ih =>
      exact (ih (c.swapRows pair.1 pair.2)).trans
        (Cells.entry_swapRows_eq c pair.1 pair.2 _ j)

theorem exchange_concat (swaps : List (Fin n × Fin n)) (p q : Fin n)
    (c : Cells ℚ n n) :
    exchange (swaps ++ [(p, q)]) c = (exchange swaps c).swapRows p q := by
  rw [exchange, List.foldl_append]
  rfl

theorem sign_origin {swaps : List (Fin n × Fin n)}
    (hdistinct : ∀ pair ∈ swaps, pair.1 ≠ pair.2) :
    Equiv.Perm.sign (origin swaps) = (-1) ^ swaps.length := by
  rw [origin, Equiv.Perm.sign_prod_list_swap, List.length_map]
  intro g hg
  obtain ⟨pair, hpair, rfl⟩ := List.mem_map.1 hg
  exact ⟨pair.1, pair.2, hdistinct pair hpair, rfl⟩

/-! ## One column -/

theorem entry_clearBelow (cells : Cells ℚ n n) (i k j : Fin n) :
    (clearBelow cells i).entry k j =
      if k ≤ i ∨ j < i then cells.entry k j
      else if j = i then cells.entry k i * (1 / cells.entry i i)
      else cells.entry k j -
        cells.entry i j * (cells.entry k i * (1 / cells.entry i i)) := by
  unfold clearBelow
  simp only [Cells.entry, Cells.row, Vector.getElem_ofFn, Fin.getElem_fin,
    Fin.eta]
  by_cases hk : k ≤ i
  · simp [hk]
  · simp [hk]

/-- What the elimination has left of a matrix when its first `count` columns
are clear; the multipliers that are kept in them do not count. -/
def remaining (count : ℕ) (factors : Cells ℚ n n) (k j : Fin n) : ℚ :=
  if j < k ∧ j.val < count then 0 else factors.entry k j

theorem remaining_of_clear {count : ℕ} {factors : Cells ℚ n n} {k j : Fin n}
    (hjk : j < k) (hj : j.val < count) : remaining count factors k j = 0 :=
  if_pos ⟨hjk, hj⟩

theorem remaining_of_le {count : ℕ} {factors : Cells ℚ n n} {k j : Fin n}
    (hkj : k ≤ j) : remaining count factors k j = factors.entry k j :=
  if_neg fun h => hkj.not_gt h.1

theorem remaining_of_ge {count : ℕ} {factors : Cells ℚ n n} {k j : Fin n}
    (hj : count ≤ j.val) : remaining count factors k j = factors.entry k j :=
  if_neg fun h => hj.not_gt h.2

/-- The rows whose entries are final when so many columns are clear. -/
def finished (n count : ℕ) : Finset (Fin n) :=
  Finset.univ.filter fun k => k.val < count

theorem mem_finished {count : ℕ} {k : Fin n} :
    k ∈ finished n count ↔ k.val < count := by
  simp [finished]

theorem finished_succ (i : Fin n) :
    finished n (i + 1) = insert i (finished n i) := by
  ext k
  rw [Finset.mem_insert, mem_finished, mem_finished, Fin.ext_iff]
  omega

section Exchange

variable {i p k l : Fin n}

/-- An exchange of rows from `i` down leaves the rows above `i` where they
are, -/
theorem swap_apply_of_lt (hp : i < p) (hk : k < i) : Equiv.swap i p k = k :=
  Equiv.swap_apply_of_ne_of_ne hk.ne (hk.trans hp).ne

theorem swap_apply_lt_iff (hp : i < p) : Equiv.swap i p k < i ↔ k < i := by
  constructor
  · intro h
    have hfixed := swap_apply_of_lt hp h
    rw [Equiv.swap_apply_self] at hfixed
    rwa [← hfixed] at h
  · intro h
    rwa [swap_apply_of_lt hp h]

/-- and no row moves past one of them. -/
theorem lt_swap_apply_iff (hp : i < p) (hl : l < i) :
    l < Equiv.swap i p k ↔ l < k := by
  rcases lt_or_ge k i with hk | hk
  · rw [swap_apply_of_lt hp hk]
  · have hbelow : i ≤ Equiv.swap i p k :=
      not_lt.1 fun h => hk.not_gt ((swap_apply_lt_iff hp).1 h)
    exact iff_of_true (hl.trans_le hbelow) (hl.trans_le hk)

theorem eq_swap_apply_iff (hp : i < p) (hl : l < i) :
    l = Equiv.swap i p k ↔ l = k := by
  rw [← Equiv.swap_apply_eq_iff, swap_apply_of_lt hp hl]

theorem lower_swapRows (factors : Cells ℚ n n) (hp : i < p) (hl : l < i) :
    lower (factors.swapRows i p) k l =
      lower factors (Equiv.swap i p k) l := by
  simp only [lower, Matrix.of_apply, Cells.entry_swapRows_eq,
    lt_swap_apply_iff hp hl, eq_swap_apply_iff hp hl]

theorem remaining_swapRows (factors : Cells ℚ n n) (hp : i < p)
    (j : Fin n) : remaining i (factors.swapRows i p) k j =
      remaining i factors (Equiv.swap i p k) j := by
  unfold remaining
  rw [Cells.entry_swapRows_eq]
  by_cases hj : j < i
  · simp only [lt_swap_apply_iff hp hj]
  · rw [if_neg fun h => hj h.2, if_neg fun h => hj h.2]

end Exchange

/-- What has to hold between the cells before and behind one column of the
elimination: the rows down to the pivot and the columns in front of it stay,
the column of the pivot holds multipliers below it, and the rows below have
lost these multiples of the row of the pivot. -/
structure Clears (i : Fin n) (factors cleared : Cells ℚ n n) : Prop where
  above : ∀ k j, k ≤ i → cleared.entry k j = factors.entry k j
  front : ∀ k j, j < i → cleared.entry k j = factors.entry k j
  multiplier : ∀ k, i < k →
    factors.entry k i = cleared.entry k i * factors.entry i i
  behind : ∀ k j, i < k → i < j → cleared.entry k j =
    factors.entry k j - cleared.entry k i * factors.entry i j

/-- Every column of the matrix has one more settled entry. -/
theorem Clears.settles {i : Fin n} {factors cleared : Cells ℚ n n}
    (h : Clears i factors cleared) (j : Fin n) :
    Settles (lower cleared) i (fun k => remaining i factors k j)
      (fun k => remaining (i + 1) cleared k j) where
  value := by
    rw [lower_self, one_mul]
    rcases lt_or_ge j i with hj | hj
    · rw [remaining_of_clear hj (Nat.lt_succ_of_lt hj),
        remaining_of_clear hj hj]
    · rw [remaining_of_le hj, remaining_of_le hj, h.above i j le_rfl]
  others := by
    intro k hk
    rcases lt_or_gt_of_ne hk with hki | hik
    · rw [lower_of_gt hki, zero_mul, sub_zero]
      rcases lt_or_ge j k with hj | hj
      · have hji : j < i := hj.trans hki
        rw [remaining_of_clear hj (Nat.lt_succ_of_lt hji),
          remaining_of_clear hj hji]
      · rw [remaining_of_le hj, remaining_of_le hj, h.above k j hki.le]
    · rw [lower_of_lt hik]
      rcases lt_trichotomy j i with hj | rfl | hj
      · have hjk : j < k := hj.trans hik
        rw [remaining_of_clear hjk (Nat.lt_succ_of_lt hj),
          remaining_of_clear hjk hj, remaining_of_clear hj
            (Nat.lt_succ_of_lt hj), mul_zero, sub_zero]
      · rw [remaining_of_clear hik (Nat.lt_succ_self _),
          remaining_of_ge le_rfl, remaining_of_le le_rfl,
          h.above j j le_rfl, ← h.multiplier k hik, sub_self]
      · rw [remaining_of_ge hj, remaining_of_ge hj.le,
          remaining_of_le hj.le, h.above i j le_rfl, h.behind k j hik hj]

theorem clears_clearBelow {i : Fin n} {factors : Cells ℚ n n}
    (hpivot : factors.entry i i ≠ 0) :
    Clears i factors (clearBelow factors i) := by
  have hmultiplier : ∀ k, i < k → (clearBelow factors i).entry k i =
      factors.entry k i * (1 / factors.entry i i) := by
    intro k hk
    rw [entry_clearBelow, if_neg (by simp [hk]), if_pos rfl]
  constructor
  · intro k j hk
    rw [entry_clearBelow, if_pos (Or.inl hk)]
  · intro k j hj
    rw [entry_clearBelow, if_pos (Or.inr hj)]
  · intro k hk
    rw [hmultiplier k hk, mul_assoc, one_div_mul_cancel hpivot, mul_one]
  · intro k j hk hj
    rw [hmultiplier k hk, entry_clearBelow,
      if_neg (by simp [hk, hj.le]), if_neg hj.ne', mul_comm (factors.entry i j)]

/-- A column without a pivot has nothing to clear, and its zeros are the
multipliers. -/
theorem clears_self {i : Fin n} {factors : Cells ℚ n n}
    (hzeros : ∀ k, i < k → factors.entry k i = 0) :
    Clears i factors factors where
  above := fun _ _ _ => rfl
  front := fun _ _ _ => rfl
  multiplier := by
    intro k hk
    rw [hzeros k hk, zero_mul]
  behind := by
    intro k j hk _
    rw [hzeros k hk, zero_mul, sub_zero]

/-- After `count` columns of the elimination of `a` the multipliers and what is
left of the matrix stand for the rows of `a` in their present order, column by
column. -/
structure Represents (a : Cells ℚ n n) (count : ℕ) (s : Factorisation ℚ n) :
    Prop where
  columns : ∀ k j, represented (lower s.factors) (finished n count)
    (fun k => remaining count s.factors k j) k =
      (exchange s.swaps a).entry k j
  distinct : ∀ pair ∈ s.swaps, pair.1 ≠ pair.2

namespace Represents

variable {a : Cells ℚ n n} {s : Factorisation ℚ n}

theorem start (a : Cells ℚ n n) : Represents a 0 ⟨a, []⟩ where
  columns := by
    intro k j
    have hnone : finished n 0 = ∅ := by simp [finished]
    rw [hnone, represented_empty, remaining_of_ge (Nat.zero_le _)]
    rfl
  distinct := by simp

/-- One more column is clear. -/
theorem clear {i : Fin n} {cleared : Cells ℚ n n} (hs : Represents a i s)
    (hclears : Clears i s.factors cleared) :
    Represents a (i + 1) ⟨cleared, s.swaps⟩ where
  columns := by
    intro k j
    have hi : i ∉ finished n i := by simp [mem_finished]
    have hzeros : ∀ k ∈ finished n i, lower cleared k i = 0 := by
      intro k hk
      exact lower_of_gt (mem_finished.1 hk)
    have hcolumns : ∀ k, ∀ j ∈ finished n i,
        lower cleared k j = lower s.factors k j := by
      intro k j hj
      simp only [lower, Matrix.of_apply,
        hclears.front k j (mem_finished.1 hj)]
    rw [finished_succ, represented_insert hi hzeros (hclears.settles j),
      represented_congr hcolumns]
    exact hs.columns k j
  distinct := hs.distinct

/-- Rows from the current one down may be exchanged together with their
multipliers. -/
theorem swapRows {i p : Fin n} (hs : Represents a i s) (hp : i < p) :
    Represents a i ⟨s.factors.swapRows i p, s.swaps ++ [(i, p)]⟩ where
  columns := by
    intro k j
    have hfinished : Equiv.swap i p k ∈ finished n i ↔ k ∈ finished n i := by
      rw [mem_finished, mem_finished]
      exact swap_apply_lt_iff hp
    rw [exchange_concat, Cells.entry_swapRows_eq, ← hs.columns]
    simp only [represented, hfinished, remaining_swapRows _ hp]
    congr 1
    apply Finset.sum_congr rfl
    intro l hl
    have hli : l < i := mem_finished.1 hl
    rw [lower_swapRows _ hp hli, swap_apply_of_lt hp hli]
  distinct := by
    intro pair hpair
    rcases List.mem_append.1 hpair with hpair | hpair
    · exact hs.distinct pair hpair
    · rw [List.mem_singleton.1 hpair]
      exact hp.ne

/-- One column of the elimination. The pivot is the largest entry from the
diagonal down, so without a pivot they all are zero. -/
theorem column {i : Fin n} (hs : Represents a i s) :
    Represents a (i + 1) (s.column i) := by
  unfold Factorisation.column
  dsimp only
  set p := Cells.pivotRow (fun k => s.factors.entry k i) i with hp
  have hip : i ≤ p := Cells.le_pivotRow _ i
  split
  · next hzero =>
    apply hs.clear
    apply clears_self
    intro k hk
    have hlargest := Cells.abs_le_abs_pivotRow
      (fun k => s.factors.entry k i) hk.le
    rw [← hp, Scalar.same_eq_true_iff.1 hzero, abs_zero] at hlargest
    exact abs_nonpos_iff.1 hlargest
  · next hnonzero =>
    have hpivot : (s.factors.swapRows i p).entry i i ≠ 0 := by
      rw [Cells.entry_swapRows_eq, Equiv.swap_apply_left]
      exact fun h => hnonzero (Scalar.same_eq_true_iff.2 h)
    rcases hip.eq_or_lt with heq | hlt
    · rw [← heq, swapRows_self] at hpivot ⊢
      rw [if_pos rfl]
      exact hs.clear (clears_clearBelow hpivot)
    · rw [if_neg hlt.ne']
      exact (hs.swapRows hlt).clear (clears_clearBelow hpivot)

end Represents

/-- By induction on the number of columns. -/
theorem represents_foldl_take (a : Cells ℚ n n) {count : ℕ}
    (hcount : count ≤ n) :
    Represents a count
      (((List.finRange n).take count).foldl Factorisation.column ⟨a, []⟩) := by
  induction count with
  | zero => exact .start a
  | succ count ih =>
      have hlength : count < (List.finRange n).length := by simpa using hcount
      rw [List.take_succ_eq_append_getElem hlength, List.foldl_append]
      have hcolumn := (ih (Nat.le_of_succ_le hcount)).column
        (i := ⟨count, hcount⟩)
      simpa using hcolumn

theorem represents_ofCells (a : Cells ℚ n n) :
    Represents a n (ofCells a) := by
  have hall := represents_foldl_take a le_rfl
  rwa [List.take_of_length_le (by simp)] at hall

/-- The factors multiply to the matrix with its rows exchanged. -/
theorem lower_mul_upper (a : Cells ℚ n n) :
    lower (ofCells a).factors * upper (ofCells a).factors =
      (exchange (ofCells a).swaps a).toMatrix := by
  have hfinished : finished n n = Finset.univ := by
    ext k
    simp [mem_finished]
  have hremaining : ∀ k j, remaining n (ofCells a).factors k j =
      upper (ofCells a).factors k j := by
    intro k j
    simp [remaining, upper]
  ext k j
  have hcolumn := (represents_ofCells a).columns k j
  rw [hfinished, represented_univ] at hcolumn
  simp only [hremaining] at hcolumn
  exact hcolumn

end SciCalc.Factorisation
