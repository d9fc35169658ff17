import Mathlib
import SciCalc.Proofs.Mat.Sessions

/-!
# Layouts of the cells of a matrix

The cells of a matrix are given as rows, in one list row after row, and in one
list column after column. Each layout leads back to the matrix, and the columns
of a matrix are the rows of its transpose. Rows make a matrix exactly when they
are a rectangle, and they are what the matrix has as its rows then. All of this
holds of the list of stored cells as well, where a layout is arithmetic on
places and an access can be out of range, as long as there is room for all cells of
the shape. A list that is too short for its shape has no rows.
-/

namespace SciCalc

open Outcome

variable {R : Type}

/-! ## Rectangles -/

/-- There are rows, and they have one length that is not zero. -/
def IsRectangle (rows : List (List R)) : Prop :=
  rows ≠ [] ∧ ∃ width, 0 < width ∧ ∀ row ∈ rows, row.length = width

theorem isRectangle_iff {rows : List (List R)} :
    IsRectangle rows ↔
      (0 < rows.length ∧ 0 < (rows.headD []).length) ∧
        ∀ row ∈ rows, row.length = (rows.headD []).length := by
  cases rows with
  | nil => simp [IsRectangle]
  | cons row rows =>
      constructor
      · rintro ⟨-, width, hwidth, hrows⟩
        obtain rfl : row.length = width := hrows row List.mem_cons_self
        exact ⟨⟨Nat.succ_pos _, hwidth⟩, hrows⟩
      · rintro ⟨⟨-, hwidth⟩, hrows⟩
        exact ⟨List.cons_ne_nil row rows, _, hwidth, hrows⟩

namespace RowMajor

variable {rows : List (List R)} {width : ℕ}

/-- Where a row of a rectangle starts among all cells. -/
theorem sum_length_take (hrows : ∀ row ∈ rows, row.length = width) {i : ℕ}
    (hi : i ≤ rows.length) :
    ((rows.map List.length).take i).sum = i * width := by
  have hlengths : rows.map List.length = List.replicate rows.length width := by
    rw [List.eq_replicate_iff]
    refine ⟨List.length_map _, fun n hn => ?_⟩
    obtain ⟨row, hrow, rfl⟩ := List.mem_map.1 hn
    exact hrows row hrow
  rw [hlengths, List.take_replicate, List.sum_replicate, min_eq_left hi,
    smul_eq_mul]

/-- The rows of a rectangle are cut out of the list of all cells. -/
theorem row_flatten (hrows : ∀ row ∈ rows, row.length = width) {i : ℕ}
    (hi : i < rows.length) :
    row ⟨rows.length, width, rows.flatten⟩ i = .ok rows[i] := by
  have hlength : rows.flatten.length = rows.length * width := by
    rw [List.length_flatten, ← sum_length_take hrows le_rfl, List.take_of_length_le]
    rw [List.length_map]
  have hstop : (i + 1) * width ≤ rows.flatten.length :=
    hlength ▸ Nat.mul_le_mul_right width hi
  have hstart : i * width ≤ (i + 1) * width :=
    Nat.mul_le_mul_right width i.le_succ
  have hcut := List.drop_take_succ_flatten_eq_getElem rows i hi
  rw [sum_length_take hrows hi.le, sum_length_take hrows hi, List.drop_take]
    at hcut
  rw [row]
  dsimp only
  rw [wrap_of_le hstop, wrap_of_le (hstart.trans hstop),
    if_pos ⟨hstart, hstop⟩, hcut]

theorem toRows_flatten (hrows : ∀ row ∈ rows, row.length = width) :
    toRows ⟨rows.length, width, rows.flatten⟩ = .ok rows := by
  have hloop : (List.range rows.length).mapM
      (row ⟨rows.length, width, rows.flatten⟩) =
        .ok ((List.range rows.length).map fun i => rows.getD i []) := by
    apply mapM_eq_ok_map
    intro i hi
    have hi := List.mem_range.1 hi
    rw [row_flatten hrows hi, List.getD_eq_getElem _ _ hi]
  rw [toRows, hloop]
  refine congrArg Except.ok (List.ext_getElem (by simp) fun i _ hi => ?_)
  simp [hi]

/-- A row of a short list does not start where the list ends, and it does not end
there: the one that holds the place behind the last cell is cut off. -/
theorem row_of_short {s : RowMajor R} (hlist : s.data.length ≤ capacity)
    (hcols : s.cols < 2 ^ 64) (hwidth : 0 < s.cols) :
    s.row (s.data.length / s.cols) = .error .outOfRange := by
  set i := s.data.length / s.cols with hi
  have hstart : i * s.cols ≤ s.data.length := Nat.div_mul_le_self _ _
  have hstop : s.data.length < (i + 1) * s.cols :=
    Nat.lt_mul_of_div_lt (Nat.lt_succ_self _) hwidth
  have hexact : wrap s.data.length ((i + 1) * s.cols) = (i + 1) * s.cols := by
    rw [wrap, if_neg (Nat.not_le.2 hstop)]
    apply Nat.mod_eq_of_lt
    change (i + 1) * s.cols < 2 ^ 64
    have hroom : 2 * capacity < 2 ^ 64 := by decide
    rcases Nat.lt_or_ge s.data.length s.cols with hnone | hsome
    · rw [hi, Nat.div_eq_of_lt hnone]
      omega
    · rw [Nat.succ_mul]
      omega
  rw [row, hexact, if_neg]
  omega

theorem toRows_of_short {s : RowMajor R} (hlist : s.data.length ≤ capacity)
    (hcols : s.cols < 2 ^ 64) (hshort : s.data.length < s.rows * s.cols) :
    s.toRows = .error .outOfRange := by
  have hwidth : 0 < s.cols :=
    Nat.pos_of_mul_pos_left (Nat.zero_lt_of_lt hshort)
  have hinside : s.data.length / s.cols < s.rows :=
    Nat.div_lt_of_lt_mul (Nat.mul_comm _ _ ▸ hshort)
  cases hrows : s.toRows with
  | ok rows =>
      obtain ⟨row, hrow⟩ := exists_of_forall₂ (mapM_eq_ok_iff.1 hrows) _
        (List.mem_range.2 hinside)
      rw [row_of_short hlist hcols hwidth] at hrow
      cases hrow
  | error fault =>
      obtain ⟨-, i, -, -, -, hrow⟩ := mapM_eq_error_iff.1 hrows
      rw [row] at hrow
      split at hrow
      · cases hrow
      · cases hrow
        rfl

/-! ## Made of rows -/

theorem ofRows_eq_ok_iff {s : RowMajor R} :
    ofRows rows = .ok s ↔
      (IsRectangle rows ∧ Storable rows.length (rows.headD []).length) ∧
        s = ⟨rows.length, (rows.headD []).length, rows.flatten⟩ := by
  rw [isRectangle_iff, ← raggedRow?_eq_none_iff, ofRows]
  generalize (rows.headD []).length = width
  by_cases hshape : 0 < rows.length ∧ 0 < width
  · by_cases hroom : Storable rows.length width
    · rw [checkShape_of_pos _ hshape.1 hshape.2, ok_bind,
        wrap_of_storable hroom, reserve_of_storable hroom, ok_bind,
        extend_eq hroom]
      cases hragged : Mat.raggedRow? width rows with
      | none => simp [hshape, hroom, eq_comm]
      | some found => simp [refuse]
    · constructor
      · intro h
        obtain ⟨_, -, h⟩ := bind_eq_ok_iff.1 h
        obtain ⟨_, -, h⟩ := bind_eq_ok_iff.1 h
        obtain ⟨all, hall, -⟩ := bind_eq_ok_iff.1 h
        exact absurd (fits_of_extend_eq_ok hall).2 hroom
      · rintro ⟨⟨-, hfits⟩, -⟩
        exact absurd hfits hroom
  · simp [checkShape_of_empty _ hshape, hshape, refuse]

end RowMajor

/-! ## Rows and columns -/

theorem Cells.transpose_transpose {m n : ℕ} (c : Cells R m n) :
    c.transpose.transpose = c := by
  apply ext
  intro i j
  rw [entry_transpose, entry_transpose]

namespace Mat

theorem transpose_transpose (a : Mat R) : a.transpose.transpose = a := by
  rw [transpose, transpose, Cells.transpose_transpose]

theorem length_toRows (a : Mat R) : a.toRows.length = a.rows := by
  simp [toRows, Cells.toRows]

theorem length_of_mem_toRows {a : Mat R} {row : List R} (h : row ∈ a.toRows) :
    row.length = a.cols := by
  obtain ⟨cells, -, rfl⟩ := List.mem_map.1 h
  exact cells.length_toList

theorem isRectangle_toRows (a : Mat R) : IsRectangle a.toRows := by
  refine ⟨?_, a.cols, a.cols_pos, fun row => length_of_mem_toRows⟩
  rw [← List.length_pos_iff, a.length_toRows]
  exact a.rows_pos

/-- What is stored of a matrix is its rows one behind the other. -/
theorem store_eq_flatten (a : Mat R) :
    a.store = ⟨a.toRows.length, a.cols, a.toRows.flatten⟩ := by
  rw [a.length_toRows]
  rfl

theorem toRows_store (a : Mat R) : a.store.toRows = .ok a.toRows := by
  rw [store_eq_flatten]
  exact RowMajor.toRows_flatten fun _ => length_of_mem_toRows

theorem length_headD_toRows (a : Mat R) : (a.toRows.headD []).length = a.cols := by
  obtain ⟨row, rows, hrows⟩ := List.exists_cons_of_ne_nil a.isRectangle_toRows.1
  have hrow : row ∈ a.toRows := hrows ▸ List.mem_cons_self
  rw [hrows]
  exact length_of_mem_toRows hrow

theorem storedRows_toRows (a : Mat R) (hroom : RowMajor.Storable a.rows a.cols) :
    RowMajor.ofRows a.toRows = .ok a.store := by
  rw [RowMajor.ofRows_eq_ok_iff, store_eq_flatten, a.length_headD_toRows,
    a.length_toRows]
  exact ⟨⟨a.isRectangle_toRows, hroom⟩, rfl⟩

theorem exists_storedRows_iff {rows : List (List R)} :
    (∃ s, RowMajor.ofRows rows = .ok s) ↔
      IsRectangle rows ∧
        RowMajor.Storable rows.length (rows.headD []).length := by
  simp [RowMajor.ofRows_eq_ok_iff]

/-- The place of a cell among the columns gives its row and its column back. -/
theorem entry_toColumnMajor (a : Mat R) (i : Fin a.rows) (j : Fin a.cols) :
    a.toColumnMajor.entry i j = a.entry i j := by
  have hplace := Vector.getElem_ofFn (f := fun place : Fin (a.rows * a.cols) =>
    a.entry ⟨place % a.rows, row_of_place_lt place⟩
      ⟨place / a.rows, col_of_place_lt place⟩) (ColumnMajor.place_lt i j)
  refine hplace.trans ?_
  congr 1
  · rw [Fin.ext_iff]
    dsimp only
    rw [Nat.mul_add_mod_self_right, Nat.mod_eq_of_lt i.isLt]
  · rw [Fin.ext_iff]
    dsimp only
    rw [Nat.mul_comm, Nat.mul_add_div a.rows_pos, Nat.div_eq_of_lt i.isLt,
      Nat.add_zero]

theorem toMat_toColumnMajor (a : Mat R) : a.toColumnMajor.toMat = .ok a := by
  have hcells : Cells.ofFn a.toColumnMajor.entry = a.cells :=
    Cells.ext fun i j => (Cells.entry_ofFn _ i j).trans (a.entry_toColumnMajor i j)
  rw [ColumnMajor.toMat, build, dif_pos ⟨a.rows_pos, a.cols_pos⟩, hcells]
  rfl

end Mat

/-! ## What is stored -/

section Stored

variable [Scalar R]

namespace Cells

variable {m n : ℕ} (c : Cells R m n)

/-- Where a cell is found in the list of all cells. -/
theorem getElem?_toList {i j : ℕ} (hi : i < m) (hj : j < n) :
    c.toList[i * n + j]? = some (c.entry ⟨i, hi⟩ ⟨j, hj⟩) := by
  have hdata : c.toList = (RowMajor.table m n c.cellAt).data :=
    congrArg RowMajor.data c.store_eq_table
  rw [hdata, RowMajor.table, List.getElem?_map, RowMajor.getElem?_grid hi hj,
    ← c.cellAt_val]
  rfl

theorem store_injective :
    Function.Injective (store : Cells R m n → RowMajor R) := by
  intro c d h
  apply ext
  intro i j
  have hcell := c.getElem?_toList i.isLt j.isLt
  rw [show c.toList = d.toList from congrArg RowMajor.data h,
    d.getElem?_toList i.isLt j.isLt] at hcell
  exact (Option.some.inj hcell).symm

end Cells

namespace Mat

theorem store_injective : Function.Injective (store : Mat R → RowMajor R) := by
  rintro ⟨m, n, c, hm, hn⟩ ⟨m', n', d, hm', hn'⟩ h
  obtain rfl : m = m' := congrArg RowMajor.rows h
  obtain rfl : n = n' := congrArg RowMajor.cols h
  obtain rfl : c = d := Cells.store_injective h
  rfl

/-- What makes the stored cells of a matrix makes the matrix. -/
theorem eq_ok_of_stored {made : Except (MatError R) (Mat R)} {a : Mat R}
    (h : stored made = .ok a.store) : made = .ok a := by
  obtain ⟨b, rfl, hb⟩ := stored_eq_ok_iff.1 h
  rw [store_injective hb]

/-! ## Rows -/

theorem stored_ofRows_eq_ok_iff {rows : List (List R)} {s : RowMajor R} :
    stored (ofRows rows) = .ok s ↔
      IsRectangle rows ∧
        s = ⟨rows.length, (rows.headD []).length, rows.flatten⟩ := by
  rw [isRectangle_iff, ← RowMajor.raggedRow?_eq_none_iff,
    RowMajor.stored_ofRows]
  generalize (rows.headD []).length = width
  split
  · next hshape =>
    cases hragged : raggedRow? width rows with
    | none => simp [hshape, eq_comm]
    | some found => simp [RowMajor.refuse]
  · next hshape => simp [hshape, RowMajor.refuse]

theorem ofRows_toRows (a : Mat R) : ofRows a.toRows = .ok a := by
  apply eq_ok_of_stored
  rw [stored_ofRows_eq_ok_iff, store_eq_flatten, a.length_headD_toRows]
  exact ⟨a.isRectangle_toRows, rfl⟩

theorem exists_ofRows_iff {rows : List (List R)} :
    (∃ a, ofRows rows = .ok a) ↔ IsRectangle rows := by
  constructor
  · rintro ⟨a, ha⟩
    exact (stored_ofRows_eq_ok_iff.1 (stored_eq_ok_iff.2 ⟨a, ha, rfl⟩)).1
  · intro hrectangle
    obtain ⟨a, ha, -⟩ := stored_eq_ok_iff.1
      (stored_ofRows_eq_ok_iff.2 ⟨hrectangle, rfl⟩)
    exact ⟨a, ha⟩

/-- A matrix made of rows has these rows. -/
theorem toRows_of_ofRows {rows : List (List R)} {a : Mat R}
    (h : ofRows rows = .ok a) : a.toRows = rows := by
  obtain ⟨hrectangle, hstore⟩ :=
    stored_ofRows_eq_ok_iff.1 (stored_eq_ok_iff.2 ⟨a, h, rfl⟩)
  have hrows := RowMajor.toRows_flatten (isRectangle_iff.1 hrectangle).2
  rw [← hstore, toRows_store] at hrows
  exact Except.ok.inj hrows

/-! ## Row after row -/

theorem storedRowMajor_toList (a : Mat R) :
    RowMajor.ofRowMajor a.rows a.cols a.toList = .ok a.store := by
  have hdata : a.toList = a.store.data := rfl
  rw [hdata, RowMajor.store_eq_table]
  exact RowMajor.ofRowMajor_data a.rows_pos a.cols_pos a.cells.cellAt

theorem ofRowMajor_toList (a : Mat R) :
    ofRowMajor a.rows a.cols a.toList = .ok a := by
  have hcells : RowMajor.wrap a.toList.length (a.rows * a.cols) =
      a.rows * a.cols := RowMajor.wrap_of_le a.cells.length_toList.ge
  apply eq_ok_of_stored
  rw [← RowMajor.ofRowMajor_eq hcells, storedRowMajor_toList]

/-! ## Column after column -/

theorem toColumnMajor_store (a : Mat R) :
    a.store.toColumnMajor = .ok a.toColumnMajor := by
  have hlength : a.store.data.length = a.store.cols * a.store.rows :=
    a.cells.length_toList.trans (Nat.mul_comm _ _)
  rw [RowMajor.toColumnMajor, dif_pos hlength]
  refine congrArg (fun values => Except.ok (ColumnMajor.mk a.rows a.cols values)) ?_
  refine congrArg Vector.ofFn (funext fun place => ?_)
  have hcell := a.cells.getElem?_toList (row_of_place_lt place) (col_of_place_lt place)
  exact (List.getElem?_eq_some_iff.1 hcell).2

/-- The columns of a matrix are the rows of its transpose. -/
theorem toList_toColumnMajor (a : Mat R) :
    a.toColumnMajor.toList = a.transpose.toList := by
  have hlength : a.toColumnMajor.toList.length = a.cols * a.rows := by
    rw [Nat.mul_comm]
    exact a.toColumnMajor.values.length_toList
  have hcell : ∀ j i, j < a.cols → i < a.rows →
      a.toColumnMajor.toList.getD (j * a.rows + i) 0 = a.cells.cellAt i j := by
    intro j i hj hi
    have hplace := RowMajor.getElem?_columnMajor a.toColumnMajor hi hj
    have hvalue : a.toColumnMajor.toList.getD (j * a.rows + i) 0 =
        a.toColumnMajor.entry ⟨i, hi⟩ ⟨j, hj⟩ := by
      rw [List.getD_eq_getElem?_getD]
      exact congrArg (Option.getD · 0) hplace
    exact (hvalue.trans (a.entry_toColumnMajor ⟨i, hi⟩ ⟨j, hj⟩)).trans
      (a.cells.cellAt_val ⟨i, hi⟩ ⟨j, hj⟩).symm
  have hstore : RowMajor.mk a.cols a.rows a.toColumnMajor.toList =
      a.transpose.store := by
    rw [RowMajor.store_transpose, ← RowMajor.table_of_list hlength,
      RowMajor.table_congr hcell]
  exact congrArg RowMajor.data hstore

/-! ## Stored cells -/

theorem restored_of_store (a : Mat R) (hroom : RowMajor.Storable a.rows a.cols) :
    (a.store.toRows >>= RowMajor.ofRows) = .ok a.store ∧
      RowMajor.ofRowMajor a.rows a.cols a.store.data = .ok a.store ∧
      (a.store.toColumnMajor >>= RowMajor.ofColumnMajor) = .ok a.store ∧
      (a.store.transpose >>= RowMajor.transpose) = .ok a.store := by
  refine ⟨?_, storedRowMajor_toList a, ?_, ?_⟩
  · rw [toRows_store, ok_bind, a.storedRows_toRows hroom]
  · have hroom' : RowMajor.Storable a.toColumnMajor.rows a.toColumnMajor.cols :=
      hroom
    rw [toColumnMajor_store, ok_bind, RowMajor.ofColumnMajor_eq hroom',
      toMat_toColumnMajor]
    rfl
  · rw [RowMajor.transpose_eq, ok_bind, RowMajor.transpose_eq,
      transpose_transpose]

/-- A cell is found at its index, at the exchanged index of the transpose and
at its index among the columns. -/
theorem read_layouts (a : Mat R) {i j : ℕ} (hi : i < a.rows) (hj : j < a.cols) :
    ∃ value, a.store.read i j = .ok value ∧
      a.transpose.store.read j i = .ok value ∧
      a.toColumnMajor.read i j = .ok value := by
  refine ⟨a.entry ⟨i, hi⟩ ⟨j, hj⟩, ?_, ?_, ?_⟩
  · exact (a.cells.read_store hi hj).trans
      (congrArg Except.ok (a.cells.cellAt_val ⟨i, hi⟩ ⟨j, hj⟩))
  · refine (a.transpose.cells.read_store hj hi).trans (congrArg Except.ok ?_)
    exact (a.cells.transpose.cellAt_val ⟨j, hj⟩ ⟨i, hi⟩).trans
      (Cells.entry_transpose _ _ _)
  · exact (RowMajor.read_columnMajor a.toColumnMajor hi hj).trans
      (congrArg Except.ok (a.entry_toColumnMajor ⟨i, hi⟩ ⟨j, hj⟩))

/-- Rows, the list of cells and the storage by columns lead back to the matrix,
and so does transposing twice. The columns of a matrix are the rows of its
transpose. Rows make a matrix if and only if they are a rectangle, which they
come back as. The stored cells of a matrix that is made have the same layouts,
and no access to a cell is out of range, if there is room for its shape; without it
there are no rows. -/
theorem layouts_lead_back :
    (∀ a : Mat R,
      ofRows a.toRows = .ok a ∧
      ofRowMajor a.rows a.cols a.toList = .ok a ∧
      a.toColumnMajor.toMat = .ok a ∧
      (∀ i j, a.toColumnMajor.entry i j = a.entry i j) ∧
      a.transpose.transpose = a ∧
      (∀ i j, a.transpose.entry j i = a.entry i j) ∧
      a.toColumnMajor.toList = a.transpose.toList) ∧
    (∀ rows : List (List R),
      ((∃ a, ofRows rows = .ok a) ↔ IsRectangle rows) ∧
      ∀ a, ofRows rows = .ok a → a.toRows = rows) ∧
    (∀ (source : MatSource R) (s : RowMajor R), source.Fits →
      source.store = .ok s →
      (s.toRows >>= RowMajor.ofRows) = .ok s ∧
      RowMajor.ofRowMajor s.rows s.cols s.data = .ok s ∧
      (s.toColumnMajor >>= RowMajor.ofColumnMajor) = .ok s ∧
      (s.transpose >>= RowMajor.transpose) = .ok s ∧
      ∃ c t, s.toColumnMajor = .ok c ∧ s.transpose = .ok t ∧
        t.rows = s.cols ∧ t.cols = s.rows ∧ c.toList = t.data ∧
        ∀ i j, i < s.rows → j < s.cols → ∃ value, s.read i j = .ok value ∧
          t.read j i = .ok value ∧ c.read i j = .ok value) ∧
    (∀ rows : List (List R),
      ((∃ s, RowMajor.ofRows rows = .ok s) ↔
        IsRectangle rows ∧
          RowMajor.Storable rows.length (rows.headD []).length) ∧
      ∀ s, RowMajor.ofRows rows = .ok s → s.toRows = .ok rows) ∧
    ∀ (source : MatSource R) (s : RowMajor R), ¬source.Fits →
      source.store = .ok s → s.data.length ≤ RowMajor.capacity →
      s.cols < 2 ^ 64 → s.toRows = .error .outOfRange := by
  refine ⟨?_, ?_, ?_, ?_, ?_⟩
  · intro a
    exact ⟨ofRows_toRows a, ofRowMajor_toList a, toMat_toColumnMajor a,
      entry_toColumnMajor a, transpose_transpose a,
      fun i j => Cells.entry_transpose a.cells i j, toList_toColumnMajor a⟩
  · intro rows
    exact ⟨exists_ofRows_iff, fun a => toRows_of_ofRows⟩
  · intro source s hroom hs
    rw [source.store_eq hroom] at hs
    obtain ⟨a, ha, rfl⟩ := stored_eq_ok_iff.1 hs
    obtain ⟨hrows, hlist, hcolumns, htranspose⟩ :=
      restored_of_store a (source.storable_of_build hroom ha)
    exact ⟨hrows, hlist, hcolumns, htranspose, a.toColumnMajor,
      a.transpose.store, toColumnMajor_store a, RowMajor.transpose_eq a, rfl, rfl,
      toList_toColumnMajor a, fun i j => read_layouts a⟩
  · intro rows
    refine ⟨exists_storedRows_iff, fun s hs => ?_⟩
    obtain ⟨⟨hrectangle, -⟩, rfl⟩ := RowMajor.ofRows_eq_ok_iff.1 hs
    exact RowMajor.toRows_flatten (isRectangle_iff.1 hrectangle).2
  · intro source s hroom hs hlist hcols
    obtain ⟨hrows, hcols'⟩ := Prod.mk.inj (MatSource.shape_of_store hs)
    apply RowMajor.toRows_of_short hlist hcols
    rw [hrows, hcols']
    exact Nat.lt_of_le_of_lt hlist (Nat.lt_of_not_le hroom)

/-- Two rows of three cells; rows of different lengths make no matrix. -/
theorem layouts_of_two_rows :
    let rows : List (List ℚ) := [[1, 2, 3], [4, 5, 6]]
    let s : RowMajor ℚ := ⟨2, 3, [1, 2, 3, 4, 5, 6]⟩
    (∃ a, ofRows rows = .ok a ∧ a.toRows = rows ∧ a.toColumnMajor.toMat = .ok a) ∧
    RowMajor.ofRows rows = .ok s ∧ s.toRows = .ok rows ∧
    (s.toColumnMajor >>= RowMajor.ofColumnMajor) = .ok s ∧
    (∃ c t, s.toColumnMajor = .ok c ∧ s.transpose = .ok t ∧
      c.toList = [1, 4, 2, 5, 3, 6] ∧ t.data = [1, 4, 2, 5, 3, 6] ∧
      ∃ value, s.read 0 2 = .ok value ∧ t.read 2 0 = .ok value ∧
        c.read 0 2 = .ok value) ∧
    ¬∃ a, ofRows ([[1, 2], [3]] : List (List ℚ)) = .ok a := by
  intro rows s
  obtain ⟨hmat, hrows, hstored, hstoredRows, -⟩ := layouts_lead_back (R := ℚ)
  have hroom : RowMajor.Storable 2 3 := by decide
  have hstore : RowMajor.ofRows rows = .ok s := rfl
  have htranspose : s.transpose = .ok ⟨3, 2, [1, 4, 2, 5, 3, 6]⟩ := rfl
  have hrectangle : IsRectangle rows := ⟨by decide, 3, by decide, by decide⟩
  obtain ⟨a, ha⟩ := (hrows rows).1.2 hrectangle
  obtain ⟨-, -, hcolumns, -, c, t, hc, ht, -, -, hlist, hread⟩ :=
    hstored (.ofRows rows) s hroom hstore
  obtain rfl := Except.ok.inj (ht.symm.trans htranspose)
  refine ⟨⟨a, ha, (hrows rows).2 a ha, (hmat a).2.2.1⟩, hstore,
    (hstoredRows rows).2 s hstore, hcolumns,
    ⟨c, _, hc, ht, hlist, rfl, hread 0 2 (by decide) (by decide)⟩, ?_⟩
  rw [(hrows [[1, 2], [3]]).1]
  rintro ⟨-, width, -, hwidth⟩
  have hfirst := hwidth [1, 2] (by simp)
  have hsecond := hwidth [3] (by simp)
  rw [← hfirst] at hsecond
  cases hsecond

/-- A shape whose cells are counted as none has no first row. -/
theorem rows_without_cells :
    let source : MatSource ℚ := .zeros 4 (2 ^ 62)
    ∃ s, source.store = .ok s ∧ s.toRows = .error .outOfRange ∧
      (s.toRows >>= RowMajor.ofRows) ≠ .ok s := by
  intro source
  refine ⟨⟨4, 2 ^ 62, []⟩, rfl, rfl, ?_⟩
  rintro ⟨⟩

end Mat

end Stored

end SciCalc
