import Mathlib
import SciCalc.Proofs.Mat.ForwardElimination
import SciCalc.Proofs.Mat.Inverse

/-!
# Solutions of linear systems

Over exact numbers a system that is not refused has the computed list as its
only solution. A refused system shows a column without a usable pivot, and
every system with determinant zero is refused: otherwise its solution could be
moved along the kernel.
-/

namespace SciCalc

namespace Elimination

variable {n : ℕ} {coefficients : Cells ℚ n n} {constants : Fin n → ℚ}

theorem solves_augment_iff (coefficients : Cells ℚ n n) (constants : Fin n → ℚ)
    (x : Fin n → ℚ) :
    Solves (augment coefficients constants) x ↔
      ∀ i, ∑ j, coefficients.entry i j * x j = constants i := by
  unfold Solves augment
  simp

theorem map_val_finRange (n : ℕ) :
    (List.finRange n).map Fin.val =
      List.range' 0 (List.finRange n).length := by
  rw [List.length_finRange, ← List.range_eq_range']
  exact List.map_coe_finRange_eq_range

theorem eliminated_of_run_ok {t : Elimination ℚ n}
    (hrun : run coefficients constants = .ok t) :
    Eliminated (augment coefficients constants) n t.rows := by
  have hall := (Eliminated.columns (map_val_finRange n)
    (Eliminated.refl (augment coefficients constants))).1 t hrun
  rwa [Nat.zero_add, List.length_finRange] at hall

theorem eliminated_of_run_error {stop : Stop ℚ n}
    (hrun : run coefficients constants = .error stop) :
    ∃ s : Elimination ℚ n,
      Eliminated (augment coefficients constants) stop.column s.rows ∧
        s.column stop.column = .error stop :=
  (Eliminated.columns (map_val_finRange n)
    (Eliminated.refl (augment coefficients constants))).2 stop hrun

theorem Eliminated.triangular {start rows : Cells ℚ n (n + 1)}
    (hrows : Eliminated start n rows) : Triangular rows where
  below := fun j k hk => hrows.cleared j k j.isLt hk
  diagonal := by
    intro j hzero
    have hpivot := hrows.pivot j j.isLt
    rw [hzero, abs_zero] at hpivot
    exact absurd hpivot (by norm_num)

/-- A finished elimination leaves exactly one solution. -/
theorem solves_iff_of_run_ok {t : Elimination ℚ n}
    (hrun : run coefficients constants = .ok t) (x : Fin n → ℚ) :
    (∀ i, ∑ j, coefficients.entry i j * x j = constants i) ↔
      Vector.ofFn x = backSubstitute t.rows := by
  have hrows := eliminated_of_run_ok hrun
  rw [← solves_augment_iff, ← hrows.solves_iff, hrows.triangular.solves_iff]

theorem cofactorDet_ne_zero_of_run_ok {t : Elimination ℚ n}
    (hrun : run coefficients constants = .ok t) :
    coefficients.cofactorDet ≠ 0 := by
  rw [Cells.cofactorDet_eq_det]
  intro hzero
  obtain ⟨v, hv, hkernel⟩ := Matrix.exists_mulVec_eq_zero_iff.2 hzero
  have hequations := solves_iff_of_run_ok hrun
  have hsolution := (hequations (backSubstitute t.rows).get).2
    Vector.ofFn_getElem
  -- Moving the solution along the kernel gives a second one.
  have hmoved := (hequations fun j => (backSubstitute t.rows).get j + v j).1 (by
    intro i
    have hi : ∑ j, coefficients.entry i j * v j = 0 := congrFun hkernel i
    simp only [mul_add, Finset.sum_add_distrib]
    rw [hsolution i, hi, add_zero])
  apply hv
  funext j
  have hj := congrArg (fun x : Vector ℚ n => x.get j) hmoved
  simp only [Vector.get_ofFn] at hj
  exact left_eq_add.1 hj.symm

/-- A column that stops the elimination has only small entries from the
diagonal down. -/
theorem small_of_column_error {s : Elimination ℚ n} {stop : Stop ℚ n}
    {i : Fin n} (hcolumn : s.column i = .error stop) :
    |stop.pivot| < 1 / 10 ^ 10 ∧
      ∀ k, stop.column ≤ k →
        |stop.state.rows.entry k stop.column.castSucc| < 1 / 10 ^ 10 := by
  obtain ⟨hless, rfl⟩ := column_eq_error_iff.1 hcolumn
  have hpivot := (Scalar.below_tolerance_iff _).1 hless
  exact ⟨hpivot, fun k hk =>
    (abs_entry_raisePivot_le s hk).trans_lt hpivot⟩

end Elimination

namespace Mat

/-- The values `x`, one for each column, satisfy the equations `a * x = b`. -/
def SolvedBy (a : Mat ℚ) (b x : List ℚ) : Prop :=
  ∃ (hb : b.length = a.rows) (hx : x.length = a.cols),
    ∀ i : Fin a.rows,
      ∑ j : Fin a.cols, a.entry i j * x[j.cast hx.symm] = b[i.cast hb.symm]

theorem toList_ofFn_getElem {n : ℕ} {x : List ℚ} (hx : x.length = n) :
    (Vector.ofFn fun j : Fin n => x[j.cast hx.symm]).toList = x := by
  apply List.ext_getElem
  · simp [hx]
  · intro j hj hj'
    simp

/-- The solutions of a system whose elimination is finished. -/
theorem solvedBy_iff_of_run_ok {n : ℕ} {c : Cells ℚ n n} (hn : 0 < n)
    {b : List ℚ} (hb : b.length = n) {t : Elimination ℚ n}
    (hrun : Elimination.run c (fun i => b[i.cast hb.symm]) = .ok t)
    (x : List ℚ) :
    SolvedBy ⟨n, n, c, hn, hn⟩ b x ↔
      x = (Elimination.backSubstitute t.rows).toList := by
  have hequations := Elimination.solves_iff_of_run_ok hrun
  constructor
  · rintro ⟨hb', hx, hsolved⟩
    rw [← (hequations fun j => x[j.cast hx.symm]).1 hsolved]
    exact (toList_ofFn_getElem hx).symm
  · rintro rfl
    have hlength : (Elimination.backSubstitute t.rows).toList.length = n := by
      simp
    refine ⟨hb, hlength, (hequations _).2 ?_⟩
    exact Vector.toList_inj.1 (toList_ofFn_getElem hlength)

/-- Solving a square system gives its only solution. A system with determinant
zero is refused whatever the constants are, and a refusal names the pivot of a
column of the partly eliminated rows that has only small entries left. -/
theorem solve_unique_or_singular (a : Mat ℚ) (b : List ℚ)
    (hsquare : a.rows = a.cols) (hlength : b.length = a.rows) :
    (∀ x, a.solve b = .ok x →
      x.length = a.rows ∧ a.SolvedBy b x ∧ ∀ y, a.SolvedBy b y → y = x) ∧
    (a.determinant = .ok 0 → ∃ p, a.solve b = .error (.singular p)) ∧
    ∀ p, a.solve b = .error (.singular p) →
      |p| < 1 / 10 ^ 10 ∧
        ∃ stop : Elimination.Stop ℚ a.rows,
          Elimination.run (a.squareCells hsquare)
            (fun i => b[i.cast hlength.symm]) = .error stop ∧
          stop.pivot = p ∧
          ∀ k, stop.column ≤ k →
            |stop.state.rows.entry k stop.column.castSucc| < 1 / 10 ^ 10 := by
  obtain ⟨n, cols, c, hn, hcols⟩ := a
  obtain rfl : n = cols := hsquare
  rw [solve, dif_pos rfl, dif_pos hlength, determinant_square,
    squareCells_square]
  cases hrun : Elimination.run c fun i => b[i.cast hlength.symm] with
  | error stop =>
      obtain ⟨s, -, hcolumn⟩ := Elimination.eliminated_of_run_error hrun
      obtain ⟨hpivot, hsmall⟩ := Elimination.small_of_column_error hcolumn
      refine ⟨?_, fun _ => ⟨_, rfl⟩, ?_⟩
      · intro x hx
        cases hx
      · intro p hp
        cases hp
        exact ⟨hpivot, stop, rfl, rfl, hsmall⟩
  | ok t =>
      have hsolutions := solvedBy_iff_of_run_ok hn hlength hrun
      refine ⟨?_, ?_, ?_⟩
      · intro x hx
        cases hx
        refine ⟨by simp, (hsolutions _).2 rfl, ?_⟩
        intro y hy
        exact (hsolutions y).1 hy
      · intro hdet
        exact absurd (Except.ok.inj hdet)
          (Elimination.cofactorDet_ne_zero_of_run_ok hrun)
      · intro p hp
        cases hp

/-- The first row of this system has no pivot of its own, and the rows of the
other system are proportional. -/
theorem solve_exchanged_and_proportional :
    (solve ⟨2, 2, Cells.ofFn ![![(0 : ℚ), 2], ![1, 1]], two_pos, two_pos⟩
        [4, 3] = .ok [1, 2] ∧
      ∀ y, SolvedBy ⟨2, 2, Cells.ofFn ![![0, 2], ![1, 1]], two_pos, two_pos⟩
        [4, 3] y → y = [1, 2]) ∧
    ∃ p, solve ⟨2, 2, Cells.ofFn ![![(1 : ℚ), 2], ![2, 4]], two_pos, two_pos⟩
      [1, 3] = .error (.singular p) ∧ |p| < 1 / 10 ^ 10 := by
  constructor
  · have hsolve : solve ⟨2, 2, Cells.ofFn ![![(0 : ℚ), 2], ![1, 1]], two_pos,
        two_pos⟩ [4, 3] = .ok [1, 2] := by decide +kernel
    obtain ⟨hunique, -⟩ :=
      solve_unique_or_singular
        ⟨2, 2, Cells.ofFn ![![0, 2], ![1, 1]], two_pos, two_pos⟩ [4, 3] rfl rfl
    exact ⟨hsolve, (hunique _ hsolve).2.2⟩
  · obtain ⟨-, hzero, hrefused⟩ :=
      solve_unique_or_singular
        ⟨2, 2, Cells.ofFn ![![1, 2], ![2, 4]], two_pos, two_pos⟩ [1, 3] rfl rfl
    obtain ⟨p, hp⟩ := hzero (by
      rw [determinant_square]
      norm_num [Cells.cofactorDet])
    exact ⟨p, hp, (hrefused p hp).1⟩

end Mat

end SciCalc
