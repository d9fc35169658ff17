import Mathlib
import SciCalc.Mat.Pivot
import SciCalc.Proofs.Mat.Exact

/-!
# The pivot of a column

The search for the pivot never goes above the row it starts from. Over exact
numbers the entry it finds is the largest of those it looks at.
-/

namespace SciCalc.Cells

section AnyScalar

variable {R : Type} [Scalar R] {m : ℕ}

theorem betterRow_mem (column : Fin m → R) (best k : Fin m) :
    betterRow column best k = best ∨ betterRow column best k = k := by
  unfold betterRow
  split
  · exact Or.inr rfl
  · exact Or.inl rfl

theorem le_foldl_betterRow (column : Fin m → R) (first : Fin m)
    (later : List (Fin m)) (hlater : ∀ k ∈ later, first ≤ k) (best : Fin m)
    (hbest : first ≤ best) :
    first ≤ later.foldl (betterRow column) best := by
  induction later generalizing best with
  | nil => exact hbest
  | cons k later ih =>
      apply ih fun k' hk' => hlater k' (List.mem_cons_of_mem _ hk')
      rcases betterRow_mem column best k with h | h
      · rw [h]
        exact hbest
      · rw [h]
        exact hlater k List.mem_cons_self

theorem le_pivotRow (column : Fin m → R) (first : Fin m) :
    first ≤ pivotRow column first := by
  have hlater : ∀ k ∈ (List.finRange m).filter fun k => first < k,
      first ≤ k := by
    intro k hk
    exact (of_decide_eq_true (List.mem_filter.1 hk).2).le
  exact le_foldl_betterRow column first _ hlater first (le_refl first)

end AnyScalar

section Exact

variable {m : ℕ}

/-- The better row is at least as good as both. -/
theorem abs_le_abs_betterRow (column : Fin m → ℚ) (best k : Fin m) :
    |column best| ≤ |column (betterRow column best k)| ∧
      |column k| ≤ |column (betterRow column best k)| := by
  unfold betterRow
  simp only [Scalar.less_eq_true_iff, Scalar.abs_eq_abs]
  split
  · next hless => exact ⟨hless.le, le_refl _⟩
  · next hless => exact ⟨le_refl _, not_lt.1 hless⟩

theorem abs_le_abs_foldl_betterRow (column : Fin m → ℚ)
    (later : List (Fin m)) (best : Fin m) :
    ∀ k ∈ best :: later,
      |column k| ≤ |column (later.foldl (betterRow column) best)| := by
  induction later generalizing best with
  | nil =>
      intro k hk
      rw [List.mem_singleton.1 hk]
      rfl
  | cons next later ih =>
      have hbetter := abs_le_abs_betterRow column best next
      have hrest := ih (betterRow column best next)
      have hhead := hrest _ List.mem_cons_self
      intro k hk
      rcases List.mem_cons.1 hk with rfl | hk
      · exact hbetter.1.trans hhead
      · rcases List.mem_cons.1 hk with rfl | hk
        · exact hbetter.2.trans hhead
        · exact hrest k (List.mem_cons_of_mem _ hk)

/-- No entry from the first row down is larger than the pivot. -/
theorem abs_le_abs_pivotRow (column : Fin m → ℚ) {first k : Fin m}
    (hk : first ≤ k) : |column k| ≤ |column (pivotRow column first)| := by
  apply abs_le_abs_foldl_betterRow
  rcases hk.eq_or_lt with rfl | hk
  · exact List.mem_cons_self
  · apply List.mem_cons_of_mem
    exact List.mem_filter.2 ⟨List.mem_finRange k, decide_eq_true hk⟩

end Exact

end SciCalc.Cells
