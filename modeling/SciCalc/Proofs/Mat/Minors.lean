import SciCalc.Proofs.Mat.StoredOperations

/-!
# Minors

A minor has the cells of the matrix at the rows and columns that are left, in
their order. So a cell is found one place further on when it lies behind what
was deleted. Rows and columns are treated alike, so that minors commute with
transposing, and of two rows or columns it does not matter which one is deleted
first, as long as the second one is found where it stands by then.
-/

namespace SciCalc

open Outcome

variable {R : Type}

/-- Of two gaps the later one stands one place earlier once the other is
closed. -/
theorem RowMajor.bump_bump {early late : ℕ} (h : early < late) (i : ℕ) :
    bump late (bump early i) = bump early (bump (late - 1) i) := by
  simp only [bump]
  split_ifs <;> omega

namespace Cells

variable {m n : ℕ}

theorem skip_eq (gap : Fin (n + 1)) (i : Fin n) :
    skip gap i = ⟨RowMajor.bump gap i, RowMajor.bump_lt i.isLt⟩ :=
  Fin.ext (RowMajor.skip_val gap i)

theorem skip_skip {early late : ℕ} (h : early < late) (hlate : late < n + 2)
    (i : Fin n) :
    skip ⟨late, hlate⟩ (skip ⟨early, by omega⟩ i) =
      skip ⟨early, by omega⟩ (skip ⟨late - 1, by omega⟩ i) := by
  apply Fin.ext
  simp only [RowMajor.skip_val]
  exact RowMajor.bump_bump h i

theorem minor_transpose (c : Cells R (m + 1) (n + 1)) (row : Fin (m + 1))
    (col : Fin (n + 1)) :
    c.transpose.minor col row = (c.minor row col).transpose := by
  apply ext
  intro j i
  simp only [entry_minor, entry_transpose]

/-- Two minors of minors have the same cells when the same rows and columns are
left. -/
theorem minor_minor_congr (c : Cells R (m + 2) (n + 2))
    {p q : Fin (m + 2)} {p' q' : Fin (m + 1)}
    {u v : Fin (n + 2)} {u' v' : Fin (n + 1)}
    (hrows : ∀ i, skip p (skip p' i) = skip q (skip q' i))
    (hcols : ∀ j, skip u (skip u' j) = skip v (skip v' j)) :
    (c.minor p u).minor p' u' = (c.minor q v).minor q' v' := by
  apply ext
  intro i j
  simp only [entry_minor, hrows, hcols]

end Cells

namespace Mat

variable {m n : ℕ}

theorem minor_inside (c : Cells R (m + 2) (n + 2)) {hm : 0 < m + 2}
    {hn : 0 < n + 2} {row col : ℕ} (hrow : row < m + 2) (hcol : col < n + 2) :
    minor ⟨m + 2, n + 2, c, hm, hn⟩ row col =
      .ok ⟨m + 1, n + 1, c.minor ⟨row, hrow⟩ ⟨col, hcol⟩, m.succ_pos,
        n.succ_pos⟩ := by
  rw [minor, dif_pos ⟨hrow, hcol⟩]

theorem minor_minor (c : Cells R (m + 3) (n + 3)) {hm : 0 < m + 3}
    {hn : 0 < n + 3} {row col row' col' : ℕ} (hrow : row < m + 3)
    (hcol : col < n + 3) (hrow' : row' < m + 2) (hcol' : col' < n + 2) :
    (minor ⟨m + 3, n + 3, c, hm, hn⟩ row col >>= fun b => b.minor row' col') =
      .ok ⟨m + 1, n + 1, (c.minor ⟨row, hrow⟩ ⟨col, hcol⟩).minor ⟨row', hrow'⟩
        ⟨col', hcol'⟩, m.succ_pos, n.succ_pos⟩ := by
  rw [minor_inside c hrow hcol, ok_bind, minor_inside _ hrow' hcol']

/-- Two rows and two columns are deleted in either order. The later one of each
has moved up by one when the earlier one went first. -/
theorem minor_minor_exchange (a : Mat R) (hrows : 3 ≤ a.rows)
    (hcols : 3 ≤ a.cols) {row row' col col' : ℕ} (hrow : row < row')
    (hrow' : row' < a.rows) (hcol : col < col') (hcol' : col' < a.cols) :
    (∃ b, (a.minor row' col' >>= fun m => m.minor row col) = .ok b ∧
      (a.minor row col >>= fun m => m.minor (row' - 1) (col' - 1)) = .ok b) ∧
    ∃ b, (a.minor row' col >>= fun m => m.minor row (col' - 1)) = .ok b ∧
      (a.minor row col' >>= fun m => m.minor (row' - 1) col) = .ok b := by
  obtain ⟨m, n, c, hm, hn⟩ := a
  obtain ⟨m, rfl⟩ := Nat.exists_eq_add_of_le' hrows
  obtain ⟨n, rfl⟩ := Nat.exists_eq_add_of_le' hcols
  dsimp only at hrow' hcol'
  have hearlyRow : row < m + 2 := by omega
  have hearlyCol : col < n + 2 := by omega
  have hlateRow : row' - 1 < m + 2 := by omega
  have hlateCol : col' - 1 < n + 2 := by omega
  have hskipRow := Cells.skip_skip (n := m + 1) hrow hrow'
  have hskipCol := Cells.skip_skip hcol hcol'
  refine ⟨⟨_, minor_minor c hrow' hcol' hearlyRow hearlyCol, ?_⟩,
    ⟨_, minor_minor c hrow' (hcol.trans hcol') hearlyRow hlateCol, ?_⟩⟩
  · rw [minor_minor c (hrow.trans hrow') (hcol.trans hcol') hlateRow hlateCol,
      c.minor_minor_congr hskipRow hskipCol]
  · rw [minor_minor c (hrow.trans hrow') hcol' hlateRow hearlyCol,
      c.minor_minor_congr hskipRow fun j => (hskipCol j).symm]

variable [Scalar R]

/-- Stored cells that lose two rows and columns are those of the matrix. -/
theorem stored_minor_minor (a : Mat R) (row col row' col' : ℕ) :
    (a.store.minor row col >>= fun s => s.minor row' col') =
      stored (a.minor row col >>= fun b => b.minor row' col') := by
  rw [RowMajor.minor_eq]
  exact stored_bind (fun b => RowMajor.minor_eq b row' col') _

/-- The cell at an index, of the matrix and of what is stored of it. -/
theorem cell_inside (a : Mat R) {i j : ℕ} (hi : i < a.rows) (hj : j < a.cols) :
    a.get? i j = some (a.entry ⟨i, hi⟩ ⟨j, hj⟩) ∧
      a.store.read i j = .ok (a.entry ⟨i, hi⟩ ⟨j, hj⟩) := by
  refine ⟨dif_pos ⟨hi, hj⟩, ?_⟩
  rw [entry, ← a.cells.cellAt_val]
  exact a.cells.read_store hi hj

theorem exists_minor (a : Mat R) (hrows : 2 ≤ a.rows) (hcols : 2 ≤ a.cols)
    {row col : ℕ} (hrow : row < a.rows) (hcol : col < a.cols) :
    ∃ b, a.minor row col = .ok b ∧
      a.transpose.minor col row = .ok b.transpose ∧
      b.rows + 1 = a.rows ∧ b.cols + 1 = a.cols ∧
      ∀ i j, i < b.rows → j < b.cols → ∃ value,
        b.get? i j = some value ∧ b.store.read i j = .ok value ∧
        a.get? (RowMajor.bump row i) (RowMajor.bump col j) = some value ∧
        a.store.read (RowMajor.bump row i) (RowMajor.bump col j) =
          .ok value := by
  obtain ⟨m, n, c, hm, hn⟩ := a
  obtain ⟨m, rfl⟩ := Nat.exists_eq_add_of_le' hrows
  obtain ⟨n, rfl⟩ := Nat.exists_eq_add_of_le' hcols
  refine ⟨_, minor_inside c hrow hcol, ?_, rfl, rfl, ?_⟩
  · rw [transpose, minor_inside c.transpose hcol hrow, Cells.minor_transpose]
    rfl
  · intro i j hi hj
    obtain ⟨hmatrix, hstored⟩ := cell_inside
      ⟨m + 2, n + 2, c, hm, hn⟩ (RowMajor.bump_lt hi) (RowMajor.bump_lt hj)
    have hcell : (c.minor ⟨row, hrow⟩ ⟨col, hcol⟩).entry ⟨i, hi⟩ ⟨j, hj⟩ =
        c.entry ⟨RowMajor.bump row i, RowMajor.bump_lt hi⟩
          ⟨RowMajor.bump col j, RowMajor.bump_lt hj⟩ := by
      rw [Cells.entry_minor, Cells.skip_eq, Cells.skip_eq]
    obtain ⟨hmatrix', hstored'⟩ := cell_inside ⟨m + 1, n + 1,
      c.minor ⟨row, hrow⟩ ⟨col, hcol⟩, m.succ_pos, n.succ_pos⟩ hi hj
    exact ⟨_, hmatrix', hstored', hmatrix.trans (congrArg some hcell.symm),
      hstored.trans (congrArg Except.ok hcell.symm)⟩

/-- A minor of a matrix with two rows and two columns at least has one row and
one column less. Its cells are those of the matrix, one row further on from the
deleted row and one column further on from the deleted column. A minor of the
transpose is the transpose of the minor with row and column exchanged. Minors of
minors do not depend on which of two rows and which of two columns goes first,
when the later one is counted as it stands by then. The stored cells do the
same, and no access to them is out of range. -/
theorem minor_deletes_row_and_column (a : Mat R) (hrows : 2 ≤ a.rows)
    (hcols : 2 ≤ a.cols) :
    (∀ row col, row < a.rows → col < a.cols →
      ∃ b, a.minor row col = .ok b ∧ a.store.minor row col = .ok b.store ∧
        b.rows + 1 = a.rows ∧ b.cols + 1 = a.cols ∧
        (∀ i j, i < b.rows → j < b.cols → ∃ value,
          b.get? i j = some value ∧ b.store.read i j = .ok value ∧
          a.get? (if i < row then i else i + 1)
            (if j < col then j else j + 1) = some value ∧
          a.store.read (if i < row then i else i + 1)
            (if j < col then j else j + 1) = .ok value) ∧
        a.transpose.minor col row = .ok b.transpose ∧
        (a.store.transpose >>= fun s => s.minor col row) = b.store.transpose) ∧
    (3 ≤ a.rows → 3 ≤ a.cols → ∀ row row' col col', row < row' →
      row' < a.rows → col < col' → col' < a.cols →
      (∃ b, (a.minor row' col' >>= fun m => m.minor row col) = .ok b ∧
        (a.minor row col >>= fun m => m.minor (row' - 1) (col' - 1)) = .ok b ∧
        (a.store.minor row' col' >>= fun s => s.minor row col) = .ok b.store ∧
        (a.store.minor row col >>= fun s => s.minor (row' - 1) (col' - 1)) =
          .ok b.store) ∧
      ∃ b, (a.minor row' col >>= fun m => m.minor row (col' - 1)) = .ok b ∧
        (a.minor row col' >>= fun m => m.minor (row' - 1) col) = .ok b ∧
        (a.store.minor row' col >>= fun s => s.minor row (col' - 1)) =
          .ok b.store ∧
        (a.store.minor row col' >>= fun s => s.minor (row' - 1) col) =
          .ok b.store) := by
  refine ⟨?_, ?_⟩
  · intro row col hrow hcol
    obtain ⟨b, hb, htranspose, hbrows, hbcols, hcells⟩ :=
      a.exists_minor hrows hcols hrow hcol
    refine ⟨b, hb, ?_, hbrows, hbcols, hcells, htranspose, ?_⟩
    · rw [RowMajor.minor_eq, hb]
      rfl
    · rw [RowMajor.transpose_eq, ok_bind, RowMajor.minor_eq, htranspose,
        RowMajor.transpose_eq]
      rfl
  · intro hrows hcols row row' col col' hrow hrow' hcol hcol'
    obtain ⟨⟨b, hlate, hearly⟩, ⟨d, hrowFirst, hcolFirst⟩⟩ :=
      a.minor_minor_exchange hrows hcols hrow hrow' hcol hcol'
    refine ⟨⟨b, hlate, hearly, ?_, ?_⟩, ⟨d, hrowFirst, hcolFirst, ?_, ?_⟩⟩
    · rw [stored_minor_minor, hlate]
      rfl
    · rw [stored_minor_minor, hearly]
      rfl
    · rw [stored_minor_minor, hrowFirst]
      rfl
    · rw [stored_minor_minor, hcolFirst]
      rfl

/-- The middle row and the first column of three rows of four cells are deleted;
the last row and the last column go before or after that. -/
theorem minors_of_three_rows :
    let a : Mat ℚ := ⟨3, 4, Cells.ofFn ![![1, 2, 3, 4], ![5, 6, 7, 8],
      ![9, 10, 11, 12]], three_pos, four_pos⟩
    (∃ b, a.minor 1 0 = .ok b ∧
      b.store = ⟨2, 3, [2, 3, 4, 10, 11, 12]⟩ ∧
      b.get? 1 2 = some 12 ∧ a.get? 2 3 = some 12 ∧
      a.transpose.minor 0 1 = .ok b.transpose) ∧
    ∃ b, (a.minor 2 3 >>= fun m => m.minor 1 0) = .ok b ∧
      (a.minor 1 0 >>= fun m => m.minor 1 2) = .ok b ∧
      b.store = ⟨1, 2, [2, 3]⟩ := by
  intro a
  obtain ⟨hminor, hexchange⟩ := minor_deletes_row_and_column a (by decide)
    (by decide)
  obtain ⟨b, hb, hstore, hbrows, hbcols, hcells, htranspose, -⟩ :=
    hminor 1 0 (by decide) (by decide)
  have hmade : a.store.minor 1 0 = .ok ⟨2, 3, [2, 3, 4, 10, 11, 12]⟩ := rfl
  have hthree : b.rows + 1 = 3 := hbrows
  have hfour : b.cols + 1 = 4 := hbcols
  obtain ⟨value, hvalue, -, hfound, -⟩ := hcells 1 2 (by omega) (by omega)
  have hlast : a.get? 2 3 = some 12 := rfl
  obtain rfl : 12 = value := Option.some.inj (hlast.symm.trans hfound)
  obtain ⟨⟨d, hlate, hearly, hstored, -⟩, -⟩ := hexchange (by decide)
    (by decide) 1 2 0 3 (by decide) (by decide) (by decide) (by decide)
  have hmadeTwice : (a.store.minor 2 3 >>= fun s => s.minor 1 0) =
      .ok ⟨1, 2, [2, 3]⟩ := rfl
  exact ⟨⟨b, hb, Except.ok.inj (hstore.symm.trans hmade), hvalue, hlast,
    htranspose⟩, d, hlate, hearly,
    Except.ok.inj (hstored.symm.trans hmadeTwice)⟩

end Mat

end SciCalc
