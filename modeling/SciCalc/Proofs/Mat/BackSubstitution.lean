import Mathlib
import SciCalc.Mat.Elimination
import SciCalc.Proofs.Mat.Exact

/-!
# Back substitution

Every unknown is computed from those behind it, and those are already final.
Whatever the scalars are, the result is therefore the one vector in which every
unknown agrees with its own formula. Over exact numbers that formula says that
the equation of the row holds, as long as the row has zeros in front of a
nonzero diagonal entry.
-/

namespace SciCalc.Elimination

section AnyScalar

variable {R : Type} [Scalar R] {n : ℕ}

/-- The formula of an unknown reads the unknowns behind it only. -/
theorem unknown_congr (rows : Cells R n (n + 1)) {x y : Vector R n} {i : Fin n}
    (hbehind : ∀ j, i < j → x.get j = y.get j) :
    unknown rows x i = unknown rows y i := by
  unfold unknown
  congr 1
  apply List.foldl_ext
  intro sum j hj
  have hij : i < j := of_decide_eq_true (List.mem_filter.1 hj).2
  rw [hbehind j hij]

/-- The unknowns with one of them set to the value of its formula. -/
def assign (rows : Cells R n (n + 1)) (x : Vector R n) (i : Fin n) :
    Vector R n :=
  Vector.ofFn fun k => if k = i then unknown rows x i else x.get k

theorem get_assign (rows : Cells R n (n + 1)) (x : Vector R n) (i k : Fin n) :
    (assign rows x i).get k = if k = i then unknown rows x i else x.get k :=
  Vector.get_ofFn _ k

theorem get_foldl_assign_of_not_mem (rows : Cells R n (n + 1))
    {indices : List (Fin n)} {k : Fin n} (hk : k ∉ indices)
    (start : Vector R n) :
    (indices.foldl (assign rows) start).get k = start.get k := by
  induction indices generalizing start with
  | nil => rfl
  | cons i rest ih =>
      have hki : k ≠ i := List.ne_of_not_mem_cons hk
      have hrest : k ∉ rest := List.not_mem_of_not_mem_cons hk
      rw [List.foldl_cons, ih hrest, get_assign, if_neg hki]

/-- Setting unknowns from the back keeps what is already set, so in the end
they still agree with their formulas. -/
theorem get_foldl_assign_of_mem (rows : Cells R n (n + 1))
    {indices : List (Fin n)} (hdescending : indices.Pairwise (· > ·))
    {k : Fin n} (hk : k ∈ indices) (start : Vector R n) :
    (indices.foldl (assign rows) start).get k =
      unknown rows (indices.foldl (assign rows) start) k := by
  induction indices generalizing start with
  | nil => cases hk
  | cons i rest ih =>
      obtain ⟨hi, hrest⟩ := List.pairwise_cons.1 hdescending
      rw [List.foldl_cons]
      by_cases hmem : k ∈ rest
      · exact ih hrest hmem _
      · obtain rfl : k = i := by simpa [hmem] using hk
        rw [get_foldl_assign_of_not_mem rows hmem, get_assign, if_pos rfl]
        apply unknown_congr
        intro j hj
        have hlater : j ∉ rest := fun hj' => (hi j hj').asymm hj
        rw [get_foldl_assign_of_not_mem rows hlater, get_assign,
          if_neg hj.ne']

theorem get_backSubstitute (rows : Cells R n (n + 1)) (i : Fin n) :
    (backSubstitute rows).get i = unknown rows (backSubstitute rows) i := by
  have hdescending : (List.finRange n).reverse.Pairwise (· > ·) :=
    List.pairwise_reverse.2 (List.pairwise_lt_finRange n)
  have hi : i ∈ (List.finRange n).reverse :=
    List.mem_reverse.2 (List.mem_finRange i)
  exact get_foldl_assign_of_mem rows hdescending hi (Vector.replicate n 0)

/-- Back substitution is the only way to give every unknown the value of its
formula. -/
theorem eq_backSubstitute_iff (rows : Cells R n (n + 1)) (x : Vector R n) :
    x = backSubstitute rows ↔ ∀ i : Fin n, x.get i = unknown rows x i := by
  constructor
  · rintro rfl i
    exact get_backSubstitute rows i
  · intro hformula
    have hagree : ∀ i : Fin n, x.get i = (backSubstitute rows).get i := by
      intro i
      -- The last unknown depends on no other, so the induction runs downwards.
      induction i using WellFoundedGT.induction with
      | ind i ih =>
          rw [hformula i, get_backSubstitute]
          exact unknown_congr rows ih
    exact Vector.ext fun i hi => hagree ⟨i, hi⟩

end AnyScalar

section Exact

variable {n : ℕ}

/-- The numbers satisfy the equations of all rows. -/
def Solves (rows : Cells ℚ n (n + 1)) (x : Fin n → ℚ) : Prop :=
  ∀ i, ∑ j, rows.entry i j.castSucc * x j = rows.entry i (Fin.last n)

/-- Below the diagonal there are zeros, and on it there are none. -/
structure Triangular (rows : Cells ℚ n (n + 1)) : Prop where
  below : ∀ j k : Fin n, j < k → rows.entry k j.castSucc = 0
  diagonal : ∀ j : Fin n, rows.entry j j.castSucc ≠ 0

theorem foldl_sub_eq_sub_sum (l : List (Fin n)) (f : Fin n → ℚ) (first : ℚ) :
    l.foldl (fun sum j => sum - f j) first = first - (l.map f).sum := by
  induction l generalizing first with
  | nil => simp
  | cons j l ih => rw [List.foldl_cons, ih, List.map_cons, List.sum_cons, sub_sub]

theorem unknown_eq (rows : Cells ℚ n (n + 1)) (x : Vector ℚ n) (i : Fin n) :
    unknown rows x i =
      (rows.entry i (Fin.last n) -
          ∑ j ∈ Finset.univ.filter (i < ·), rows.entry i j.castSucc * x.get j) /
        rows.entry i i.castSucc := by
  unfold unknown
  congr 1
  refine (foldl_sub_eq_sub_sum _
    (fun j => rows.entry i j.castSucc * x.get j) _).trans ?_
  rw [← List.sum_toFinset _ ((List.nodup_finRange n).filter _)]
  congr 2
  ext j
  simp

/-- With zeros in front of the diagonal, the equation of a row has one term on
the diagonal and the others behind it. -/
theorem Triangular.row_sum {rows : Cells ℚ n (n + 1)} (hrows : Triangular rows)
    (x : Fin n → ℚ) (i : Fin n) :
    ∑ j, rows.entry i j.castSucc * x j =
      rows.entry i i.castSucc * x i +
        ∑ j ∈ Finset.univ.filter (i < ·), rows.entry i j.castSucc * x j := by
  have hfront : ∑ j ∈ Finset.univ.filter (i ≤ ·),
      rows.entry i j.castSucc * x j =
      ∑ j, rows.entry i j.castSucc * x j := by
    apply Finset.sum_subset (Finset.subset_univ _)
    intro j _ hj
    have hlt : j < i := by simpa using hj
    rw [hrows.below j i hlt, zero_mul]
  have hsplit : Finset.univ.filter (i ≤ ·) =
      insert i (Finset.univ.filter (i < ·)) := by
    ext j
    simp [le_iff_eq_or_lt, eq_comm]
  rw [← hfront, hsplit, Finset.sum_insert (by simp)]

/-- Triangular rows have one solution, and back substitution finds it. -/
theorem Triangular.solves_iff {rows : Cells ℚ n (n + 1)}
    (hrows : Triangular rows) (x : Fin n → ℚ) :
    Solves rows x ↔ Vector.ofFn x = backSubstitute rows := by
  rw [eq_backSubstitute_iff]
  apply forall_congr'
  intro i
  simp only [hrows.row_sum, unknown_eq, Vector.get_ofFn]
  rw [eq_div_iff (hrows.diagonal i), eq_sub_iff_add_eq, mul_comm]

end Exact

end SciCalc.Elimination
