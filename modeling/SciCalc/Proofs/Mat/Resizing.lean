import Mathlib
import SciCalc.Proofs.Mat.Shapes

/-!
# Resizing matrices

A matrix of another shape has the cells that both shapes share, and zeros
elsewhere. A cell that is cut off in between is lost, and one that is added is
zero; so two changes of the shape are the second one alone when the shape in
between has all the cells of the matrix that the last one asks for. Rows and
columns are treated alike, so that resizing commutes with transposing. All of this
is for shapes that there is room for; a larger one leaves a list without the cells
of its shape.
-/

namespace SciCalc

open Outcome
open RowMajor (Storable)

variable {R : Type} [Scalar R]

namespace Cells

variable {m n : ℕ}

theorem cellAt_ofFn (f : ℕ → ℕ → R) (i j : ℕ) :
    (ofFn fun (i : Fin m) (j : Fin n) => f i j).cellAt i j =
      if i < m ∧ j < n then f i j else 0 := by
  rw [cellAt]
  split
  · rw [entry_ofFn]
  · rfl

theorem cellAt_transpose (c : Cells R m n) (i j : ℕ) :
    c.transpose.cellAt j i = c.cellAt i j := by
  rw [cellAt, cellAt]
  simp only [and_comm, entry_transpose]

end Cells

namespace Mat

variable (a : Mat R) {rows cols rows' cols' : ℕ}

/-- A shape that is not empty is filled with the cells at its indices. -/
theorem resized_eq_ok (hrows : 0 < rows) (hcols : 0 < cols) :
    a.resized rows cols =
      .ok ⟨rows, cols, Cells.ofFn fun i j => a.cells.cellAt i j, hrows, hcols⟩ := by
  rw [resized, build, dif_pos ⟨hrows, hcols⟩]
  simp only [RowMajor.getD_get?]

/-- What is cut off in between is not asked for at the end. -/
theorem cellAt_between (hrows : min rows' a.rows ≤ rows)
    (hcols : min cols' a.cols ≤ cols) {i j : ℕ} (hi : i < rows')
    (hj : j < cols') :
    (if i < rows ∧ j < cols then a.cells.cellAt i j else 0) =
      a.cells.cellAt i j := by
  split
  · rfl
  · next hcut => exact (Cells.cellAt_of_not (by omega)).symm

theorem resized_resized (hrows : 0 < rows) (hcols : 0 < cols)
    (hrows' : 0 < rows') (hcols' : 0 < cols')
    (hfitRows : min rows' a.rows ≤ rows) (hfitCols : min cols' a.cols ≤ cols) :
    (a.resized rows cols >>= fun b => b.resized rows' cols') =
      a.resized rows' cols' := by
  rw [a.resized_eq_ok hrows hcols, ok_bind, resized_eq_ok _ hrows' hcols',
    resized_eq_ok _ hrows' hcols']
  simp only [Cells.cellAt_ofFn]
  congr 3
  funext i j
  exact a.cellAt_between hfitRows hfitCols i.isLt j.isLt

theorem resized_self : a.resized a.rows a.cols = .ok a := by
  have hcells : (Cells.ofFn fun i j => a.cells.cellAt i j) = a.cells :=
    Cells.ext fun i j => (Cells.entry_ofFn _ i j).trans (a.cells.cellAt_val i j)
  rw [a.resized_eq_ok a.rows_pos a.cols_pos, hcells]

theorem resized_transpose (hrows : 0 < rows) (hcols : 0 < cols) :
    a.transpose.resized cols rows = (a.resized rows cols).map transpose := by
  rw [resized_eq_ok _ hcols hrows, a.resized_eq_ok hrows hcols]
  refine congrArg (fun c => Except.ok (Mat.mk cols rows c hcols hrows))
    (Cells.ext fun j i => ?_)
  rw [Cells.entry_transpose, Cells.entry_ofFn, Cells.entry_ofFn]
  exact a.cells.cellAt_transpose i j

/-- The cells of the new shape, at each index and at each place. -/
theorem exists_resized (hrows : 0 < rows) (hcols : 0 < cols)
    (hroom : Storable rows cols) :
    ∃ b, a.resized rows cols = .ok b ∧
      a.store.resized rows cols = .ok b.store ∧
      b.rows = rows ∧ b.cols = cols ∧
      ∀ i j, i < rows → j < cols →
        b.get? i j = some (a.cells.cellAt i j) ∧
        b.store.read i j = .ok (a.cells.cellAt i j) := by
  have hmade := a.resized_eq_ok hrows hcols
  refine ⟨_, hmade, ?_, rfl, rfl, fun i j hi hj => ⟨?_, ?_⟩⟩
  · rw [RowMajor.resized_eq a hroom, hmade]
    rfl
  · rw [get?, dif_pos ⟨hi, hj⟩]
    exact congrArg some (Cells.entry_ofFn _ _ _)
  · refine (Cells.read_store _ hi hj).trans (congrArg Except.ok ?_)
    rw [Cells.cellAt_ofFn, if_pos ⟨hi, hj⟩]

/-- Stored cells that are resized twice are those of the matrix. -/
theorem stored_resized_resized (hroom : Storable rows cols)
    (hroom' : Storable rows' cols') :
    (a.store.resized rows cols >>= fun s => s.resized rows' cols') =
      stored (a.resized rows cols >>= fun b => b.resized rows' cols') := by
  rw [RowMajor.resized_eq a hroom]
  exact stored_bind (fun b => RowMajor.resized_eq b hroom') _

/-- A matrix of another shape has the cells of the matrix at the indices of both
shapes and zeros at the others. Two changes of the shape are the second one
alone when the shape between them has what the last one keeps; growing and
shrinking back gives the matrix again; and the transpose is resized as the
matrix is, with its dimensions exchanged. The stored cells do the same as long as
there is room for the new shape; without it they never are the cells of a matrix of
the new shape. -/
theorem resizing_composes (a : Mat R) :
    (∀ rows cols, 0 < rows → 0 < cols → Storable rows cols →
      ∃ b, a.resized rows cols = .ok b ∧
        a.store.resized rows cols = .ok b.store ∧
        b.rows = rows ∧ b.cols = cols ∧
        (∀ (i : Fin a.rows) (j : Fin a.cols), i < rows → j < cols →
          b.get? i j = some (a.entry i j) ∧
          b.store.read i j = .ok (a.entry i j)) ∧
        ∀ i j, i < rows → j < cols → ¬(i < a.rows ∧ j < a.cols) →
          b.get? i j = some 0 ∧ b.store.read i j = .ok 0) ∧
    (∀ rows cols rows' cols', 0 < rows → 0 < cols → 0 < rows' → 0 < cols' →
      Storable rows cols → Storable rows' cols' →
      min rows' a.rows ≤ rows → min cols' a.cols ≤ cols →
      (a.resized rows cols >>= fun b => b.resized rows' cols') =
          a.resized rows' cols' ∧
        (a.store.resized rows cols >>= fun s => s.resized rows' cols') =
          a.store.resized rows' cols') ∧
    (∀ rows cols, a.rows ≤ rows → a.cols ≤ cols → Storable rows cols →
      (a.resized rows cols >>= fun b => b.resized a.rows a.cols) = .ok a ∧
        (a.store.resized rows cols >>= fun s => s.resized a.rows a.cols) =
          .ok a.store) ∧
    (∀ rows cols, 0 < rows → 0 < cols → Storable rows cols →
      a.transpose.resized cols rows = (a.resized rows cols).map transpose ∧
        (a.store.transpose >>= fun s => s.resized cols rows) =
          (a.store.resized rows cols >>= RowMajor.transpose)) ∧
    ∀ rows cols, ¬Storable rows cols →
      ∀ s, a.store.resized rows cols = .ok s →
        s.data.length ≠ s.rows * s.cols := by
  refine ⟨?_, ?_, ?_, ?_, fun rows cols hroom s =>
    RowMajor.length_ne_of_resized hroom⟩
  · intro rows cols hrows hcols hroom
    obtain ⟨b, hb, hstore, hbrows, hbcols, hcell⟩ :=
      a.exists_resized hrows hcols hroom
    refine ⟨b, hb, hstore, hbrows, hbcols, ?_, ?_⟩
    · intro i j hi hj
      rw [entry, ← a.cells.cellAt_val]
      exact hcell i j hi hj
    · intro i j hi hj hnew
      rw [← Cells.cellAt_of_not hnew]
      exact hcell i j hi hj
  · intro rows cols rows' cols' hrows hcols hrows' hcols' hroom hroom'
      hfitRows hfitCols
    have htwice := a.resized_resized hrows hcols hrows' hcols' hfitRows hfitCols
    refine ⟨htwice, ?_⟩
    rw [a.stored_resized_resized hroom hroom', htwice,
      RowMajor.resized_eq a hroom']
  · intro rows cols hrows hcols hroom
    have hroom' : Storable a.rows a.cols :=
      (Nat.mul_le_mul hrows hcols).trans hroom
    have hback := a.resized_resized (a.rows_pos.trans_le hrows)
      (a.cols_pos.trans_le hcols) a.rows_pos a.cols_pos
      ((min_le_right _ _).trans hrows) ((min_le_right _ _).trans hcols)
    rw [resized_self] at hback
    refine ⟨hback, ?_⟩
    rw [a.stored_resized_resized hroom hroom', hback]
    rfl
  · intro rows cols hrows hcols hroom
    have hroom' : Storable cols rows := RowMajor.storable_comm.1 hroom
    have htranspose := a.resized_transpose hrows hcols
    refine ⟨htranspose, ?_⟩
    rw [RowMajor.transpose_eq, ok_bind, RowMajor.resized_eq _ hroom',
      htranspose, RowMajor.resized_eq a hroom, RowMajor.stored_bind_transpose]

/-- A column is cut off and a row of zeros added. On the way to one row the
second row is cut off. -/
theorem resizing_of_two_rows :
    let a : Mat ℚ := ⟨2, 3, Cells.ofFn ![![1, 2, 3], ![4, 5, 6]], two_pos,
      three_pos⟩
    (∃ b, a.resized 3 2 = .ok b ∧ b.get? 1 1 = some 5 ∧ b.get? 2 0 = some 0 ∧
      a.store.resized 3 2 = .ok ⟨3, 2, [1, 2, 4, 5, 0, 0]⟩) ∧
    (a.resized 1 3 >>= fun b => b.resized 1 4) = a.resized 1 4 ∧
    (a.store.resized 1 3 >>= fun s => s.resized 1 4) =
      .ok ⟨1, 4, [1, 2, 3, 0]⟩ ∧
    (a.resized 2 5 >>= fun b => b.resized 2 3) = .ok a ∧
    a.transpose.resized 2 3 = (a.resized 3 2).map transpose := by
  intro a
  obtain ⟨hcells, htwice, hback, htranspose, -⟩ := resizing_composes a
  obtain ⟨b, hb, -, -, -, hkept, hadded⟩ :=
    hcells 3 2 (by decide) (by decide) (by decide)
  have hbetween := htwice 1 3 1 4 (by decide) (by decide) (by decide)
    (by decide) (by decide) (by decide) (by decide) (by decide)
  refine ⟨⟨b, hb, ?_, ?_, ?_⟩, hbetween.1, ?_, ?_, ?_⟩
  · exact (hkept 1 1 (by decide) (by decide)).1
  · exact (hadded 2 0 (by decide) (by decide) (by decide)).1
  · rfl
  · rw [hbetween.2]
    rfl
  · exact (hback 2 5 (by decide) (by decide) (by decide)).1
  · exact (htranspose 3 2 (by decide) (by decide) (by decide)).1

/-- A matrix of one cell in a shape whose cells are counted as none: there is no
place for the cell that is kept. -/
theorem resized_without_cells :
    let a : Mat ℚ := ⟨1, 1, Cells.ofFn fun _ _ => 1, one_pos, one_pos⟩
    0 < 4 ∧ 0 < 2 ^ 62 ∧
      a.store.resized 4 (2 ^ 62) = .error .outOfRange ∧
      ¬∃ s, a.store.resized 4 (2 ^ 62) = .ok s := by
  intro a
  have hresized : a.store.resized 4 (2 ^ 62) = .error .outOfRange := rfl
  refine ⟨by decide, by decide, hresized, ?_⟩
  rintro ⟨s, hs⟩
  rw [hresized] at hs
  cases hs

end Mat

end SciCalc
