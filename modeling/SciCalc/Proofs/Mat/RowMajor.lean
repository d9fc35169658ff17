import SciCalc.Mat.RowMajor
import SciCalc.Proofs.Outcome

/-!
# Stored cells row after row

The list of cells of a matrix has one cell for each place of the shape, and the
place that belongs to an index is found at the index's distance from the start.
So an access inside of the shape never misses, and loops over places are
described by the cell they leave at each place. A list is made with a cell for
each place only if there is room for all of them.
-/

namespace SciCalc

open Outcome

variable {R : Type}

/-- The outcome of an operation on matrices, with the cells of its result
stored. -/
def stored : Except (MatError R) (Mat R) →
    Except (StorageFault R) (RowMajor R)
  | .ok a => .ok a.store
  | .error cause => .error (.refused cause)

theorem stored_ne_outOfRange (made : Except (MatError R) (Mat R)) :
    stored made ≠ .error .outOfRange := by
  cases made with
  | ok a => rintro ⟨⟩
  | error cause => rintro ⟨⟩

theorem stored_ne_tooLarge (made : Except (MatError R) (Mat R)) :
    stored made ≠ .error .tooLarge := by
  cases made with
  | ok a => rintro ⟨⟩
  | error cause => rintro ⟨⟩

theorem stored_eq_refused_iff {made : Except (MatError R) (Mat R)}
    {cause : MatError R} :
    stored made = .error (.refused cause) ↔ made = .error cause := by
  cases made with
  | ok a => simp [stored]
  | error cause' => simp [stored]

theorem stored_eq_ok_iff {made : Except (MatError R) (Mat R)}
    {s : RowMajor R} :
    stored made = .ok s ↔ ∃ a, made = .ok a ∧ a.store = s := by
  cases made with
  | ok a => simp [stored]
  | error cause => simp [stored]

/-- A calculation that goes on with what is stored. -/
theorem stored_bind {next : Mat R → Except (MatError R) (Mat R)}
    {next' : RowMajor R → Except (StorageFault R) (RowMajor R)}
    (hnext : ∀ a : Mat R, next' a.store = stored (next a))
    (made : Except (MatError R) (Mat R)) :
    (stored made >>= next') = stored (made >>= next) := by
  cases made with
  | ok a => exact hnext a
  | error cause => rfl

namespace RowMajor

/-! ## Sizes -/

theorem capacity_lt : capacity < 2 ^ 64 := by
  decide

theorem wrap_of_le {length n : ℕ} (h : n ≤ length) : wrap length n = n :=
  if_pos h

/-- All cells of a shape are counted if there is room for them. -/
theorem wrap_of_storable {rows cols : ℕ} (h : Storable rows cols)
    (length : ℕ) : wrap length (rows * cols) = rows * cols := by
  rw [wrap]
  split
  · rfl
  · exact Nat.mod_eq_of_lt (Nat.lt_of_le_of_lt h capacity_lt)

theorem storable_comm {rows cols : ℕ} :
    Storable rows cols ↔ Storable cols rows := by
  rw [Storable, Storable, Nat.mul_comm]

theorem reserve_eq_ok_iff {cells : ℕ} :
    (reserve cells : Except (StorageFault R) Unit) = .ok () ↔
      cells ≤ capacity := by
  rw [reserve]
  split
  · next hlarge => simp [hlarge]
  · next hroom => simpa using hroom

theorem reserve_of_storable {rows cols : ℕ} (h : Storable rows cols) :
    (reserve (rows * cols) : Except (StorageFault R) Unit) = .ok () :=
  reserve_eq_ok_iff.2 h

/-! ## Places -/

theorem places_eq_product (rows cols : List ℕ) :
    places rows cols = rows ×ˢ cols := rfl

theorem mem_places_iff {rows cols : List ℕ} {i j : ℕ} :
    (i, j) ∈ places rows cols ↔ i ∈ rows ∧ j ∈ cols := by
  rw [places_eq_product, List.mem_product]

theorem mem_grid_iff {rows cols i j : ℕ} :
    (i, j) ∈ grid rows cols ↔ i < rows ∧ j < cols := by
  rw [grid, mem_places_iff, List.mem_range, List.mem_range]

theorem length_grid (rows cols : ℕ) :
    (grid rows cols).length = rows * cols := by
  rw [grid, places_eq_product, List.length_product, List.length_range,
    List.length_range]

theorem nodup_grid (rows cols : ℕ) : (grid rows cols).Nodup :=
  List.nodup_range.product List.nodup_range

/-- The induction is on the rows; each of them takes as many places as there
are columns. -/
theorem getElem?_places (rows : List ℕ) {cols : List ℕ} {i j : ℕ}
    (hj : j < cols.length) :
    (places rows cols)[i * cols.length + j]? =
      (rows[i]?).map fun row => (row, cols[j]) := by
  induction rows generalizing i with
  | nil => rfl
  | cons row rows ih =>
      have hcons : places (row :: rows) cols =
          (cols.map fun col => (row, col)) ++ places rows cols := rfl
      rw [hcons]
      cases i with
      | zero =>
          rw [Nat.zero_mul, Nat.zero_add, List.getElem?_append_left (by simpa)]
          simp [hj]
      | succ i =>
          rw [List.getElem?_append_right
            (by rw [List.length_map, Nat.succ_mul]; omega)]
          have hplace : (i + 1) * cols.length + j -
              (cols.map fun col => (row, col)).length =
                i * cols.length + j := by
            rw [List.length_map, Nat.succ_mul]
            omega
          rw [hplace, ih, List.getElem?_cons_succ]

theorem getElem?_grid {rows cols i j : ℕ} (hi : i < rows) (hj : j < cols) :
    (grid rows cols)[i * cols + j]? = some (i, j) := by
  have hwidth : j < (List.range cols).length := by simpa
  simpa [grid, hi] using getElem?_places (List.range rows) (i := i) hwidth

/-! ## Tables -/

/-- Every place of the shape holds what the function says. -/
def table (rows cols : ℕ) (f : ℕ → ℕ → R) : RowMajor R :=
  ⟨rows, cols, (grid rows cols).map fun place => f place.1 place.2⟩

variable {rows cols i j : ℕ} {f g : ℕ → ℕ → R}

theorem length_data_table (rows cols : ℕ) (f : ℕ → ℕ → R) :
    (table rows cols f).data.length = rows * cols := by
  rw [table, List.length_map, length_grid]

theorem table_congr (h : ∀ i j, i < rows → j < cols → f i j = g i j) :
    table rows cols f = table rows cols g := by
  have hdata : ((grid rows cols).map fun place => f place.1 place.2) =
      (grid rows cols).map fun place => g place.1 place.2 := by
    apply List.map_congr_left
    rintro ⟨i, j⟩ hplace
    obtain ⟨hi, hj⟩ := mem_grid_iff.1 hplace
    exact h i j hi hj
  rw [table, table, hdata]

/-- A place inside of the shape is one of the list, however large it is. -/
theorem place_table (hi : i < rows) (hj : j < cols) :
    (table rows cols f).place i j = i * cols + j := by
  obtain ⟨hplace, -⟩ := List.getElem?_eq_some_iff.1 (getElem?_grid hi hj)
  rw [length_grid] at hplace
  apply wrap_of_le
  rw [length_data_table]
  exact hplace.le

/-- An access inside of the shape finds the cell. -/
theorem read_table (hi : i < rows) (hj : j < cols) :
    (table rows cols f).read i j = .ok (f i j) := by
  have hcell : (table rows cols f).data[i * cols + j]? = some (f i j) := by
    rw [table, List.getElem?_map, getElem?_grid hi hj]
    rfl
  have hinside : i < (table rows cols f).rows ∧ j < (table rows cols f).cols :=
    ⟨hi, hj⟩
  rw [read, if_pos hinside, place_table hi hj, hcell]

/-- A cell that is written changes at its own place alone. -/
theorem write_table (hi : i < rows) (hj : j < cols) (value : R) :
    (table rows cols f).write i j value =
      .ok (table rows cols fun i' j' =>
        if (i', j') = (i, j) then value else f i' j') := by
  obtain ⟨hplace, hget⟩ := List.getElem?_eq_some_iff.1 (getElem?_grid hi hj)
  have hindex : ∀ [BEq (ℕ × ℕ)] [LawfulBEq (ℕ × ℕ)],
      (grid rows cols).idxOf (i, j) = i * cols + j := by
    intro _ _
    rw [← hget]
    exact (nodup_grid rows cols).idxOf_getElem _ hplace
  have hupdate := (nodup_grid rows cols).map_update
    (fun place => f place.1 place.2) (i, j) value
  rw [if_pos (mem_grid_iff.2 ⟨hi, hj⟩)] at hupdate
  simp only [hindex] at hupdate
  have hfits : i < (table rows cols f).rows ∧ j < (table rows cols f).cols ∧
      (table rows cols f).place i j < (table rows cols f).data.length := by
    rw [place_table hi hj, length_data_table]
    exact ⟨hi, hj, length_grid rows cols ▸ hplace⟩
  have hdata : (table rows cols f).data.set (i * cols + j) value =
      (grid rows cols).map fun place =>
        if (place.1, place.2) = (i, j) then value else f place.1 place.2 := by
    refine hupdate.symm.trans (List.map_congr_left fun place _ => ?_)
    exact Function.update_apply _ _ _ place
  rw [write, if_pos hfits, place_table hi hj]
  exact congrArg (fun data => Except.ok (RowMajor.mk rows cols data)) hdata

/-- Values written to places inside of the shape; what stands in the table
before is kept at the other places. -/
theorem fill_table {targets : List (ℕ × ℕ)}
    {value : ℕ × ℕ → Except (StorageFault R) R}
    (h : ∀ i j, (i, j) ∈ targets →
      i < rows ∧ j < cols ∧ value (i, j) = .ok (g i j)) :
    (table rows cols f).fill targets value =
      .ok (table rows cols fun i j =>
        if (i, j) ∈ targets then g i j else f i j) := by
  induction targets generalizing f with
  | nil => simp [fill]
  | cons target targets ih =>
      obtain ⟨i, j⟩ := target
      obtain ⟨hi, hj, hvalue⟩ := h i j List.mem_cons_self
      have hrest := fun f => ih (f := f)
        fun i j hmem => h i j (List.mem_cons_of_mem _ hmem)
      rw [fill, List.foldlM_cons, hvalue, ok_bind, write_table hi hj, ok_bind]
      refine (hrest _).trans (congrArg _ (table_congr ?_))
      intro i' j' hi' hj'
      by_cases hlater : (i', j') ∈ targets
      · simp [hlater]
      · by_cases hsame : (i', j') = (i, j)
        · cases hsame
          simp [hlater]
        · simp [hlater, hsame]

/-! ## Cells that are listed -/

/-- The places of a shape are numbered without a gap. -/
theorem map_place_grid (rows cols : ℕ) :
    (grid rows cols).map (fun place => place.1 * cols + place.2) =
      List.range (rows * cols) := by
  induction rows with
  | zero => simp [grid, places]
  | succ rows ih =>
      have hlast : grid (rows + 1) cols = grid rows cols ++
          (List.range cols).map fun j => (rows, j) := by
        simp [grid, places, List.range_succ]
      rw [hlast, List.map_append, ih, List.map_map, Nat.succ_mul,
        List.range_add]
      rfl

/-- As many cells as the shape has places are the table of these cells. -/
theorem table_of_list [Zero R] {values : List R}
    (h : values.length = rows * cols) :
    table rows cols (fun i j => values.getD (i * cols + j) 0) =
      ⟨rows, cols, values⟩ := by
  have hdata : (grid rows cols).map
      (fun place => values.getD (place.1 * cols + place.2) 0) = values := by
    calc
      (grid rows cols).map
          (fun place => values.getD (place.1 * cols + place.2) 0) =
          (List.range (rows * cols)).map fun k => values.getD k 0 := by
        rw [← map_place_grid, List.map_map]
        rfl
      _ = values := by
        apply List.ext_getElem
        · simp [h]
        · intro k _ hk
          simp [hk]
  rw [table, hdata]

/-- Rows of one length, one behind the other, are the table of their cells. -/
theorem table_of_rows {ls : List (List R)} (hrows : ls.length = rows)
    (hcols : ∀ row ∈ ls, row.length = cols)
    (h : ∀ i j, i < rows → j < cols →
      (ls[i]?.bind fun row => row[j]?) = some (f i j)) :
    table rows cols f = ⟨rows, cols, ls.flatten⟩ := by
  have hls : ls = (List.range rows).map fun i =>
      (List.range cols).map fun j => f i j := by
    apply List.ext_getElem
    · simp [hrows]
    · intro i hi _
      have hwidth := hcols _ (List.getElem_mem hi)
      apply List.ext_getElem
      · simp [hwidth]
      · intro j hj _
        simpa [hi, hj] using h i j (hrows ▸ hi) (hwidth ▸ hj)
  rw [hls, table, grid, places, List.map_flatMap]
  simp [List.flatMap_def, Function.comp_def]

theorem store_ofFn {m n : ℕ} {c : Cells R m n}
    (h : ∀ i j, c.entry i j = f i j) : c.store = table m n f := by
  symm
  apply table_of_rows
  · simp
  · simp
  · intro i j hi hj
    simpa [hi, hj, Cells.entry, Cells.row] using h ⟨i, hi⟩ ⟨j, hj⟩

/-! ## Making stored cells -/

theorem checkShape_of_pos (operation : MatOperation) (hrows : 0 < rows)
    (hcols : 0 < cols) :
    (checkShape operation rows cols : Except (StorageFault R) Unit) =
      .ok () := by
  rw [checkShape, if_neg]
  omega

theorem checkShape_of_empty (operation : MatOperation)
    (h : ¬(0 < rows ∧ 0 < cols)) :
    (checkShape operation rows cols : Except (StorageFault R) Unit) =
      refuse (.emptyShape operation rows cols) := by
  rw [checkShape, if_pos]
  omega

theorem ofRowMajor_data (hrows : 0 < rows) (hcols : 0 < cols)
    (f : ℕ → ℕ → R) :
    ofRowMajor rows cols (table rows cols f).data =
      .ok (table rows cols f) := by
  have hcells : wrap (table rows cols f).data.length (rows * cols) =
      rows * cols := wrap_of_le (length_data_table rows cols f).ge
  rw [ofRowMajor, checkShape_of_pos _ hrows hcols, ok_bind, hcells,
    if_pos (length_data_table rows cols f)]
  rfl

theorem appendRow_eq_ok_iff {data next : List R} {row : List R × ℕ} :
    appendRow cols data row = .ok next ↔
      row.1.length = cols ∧ data.length + cols ≤ capacity ∧
        next = data ++ row.1 := by
  rw [appendRow]
  split
  · next hrow =>
    rw [hrow]
    constructor
    · intro h
      obtain ⟨_, hreserve, h⟩ := bind_eq_ok_iff.1 h
      cases h
      exact ⟨rfl, reserve_eq_ok_iff.1 hreserve, rfl⟩
    · rintro ⟨-, hroom, rfl⟩
      rw [reserve_eq_ok_iff.2 hroom]
      rfl
  · next hragged => simp [hragged, refuse]

/-- Rows are put one behind the other up to the first ragged one, if there is
room for all of them. The induction is on the rows that are left, behind the cells
that are there. -/
theorem extend_eq {rows : List (List R)} (h : Storable rows.length cols) :
    (extend cols rows : Except (StorageFault R) (List R)) =
      match Mat.raggedRow? cols rows with
      | none => .ok rows.flatten
      | some (row, i) => refuse (.raggedRow cols row.length i) := by
  have hgeneral : ∀ (data : List R) (k : ℕ),
      data.length + rows.length * cols ≤ capacity →
      (rows.zipIdx k).foldlM (appendRow cols) data =
        match (rows.zipIdx k).find? fun r => r.1.length != cols with
        | none => .ok (data ++ rows.flatten)
        | some (row, i) => refuse (.raggedRow cols row.length i) := by
    clear h
    induction rows with
    | nil => simp
    | cons row rows ih =>
        intro data k hroom
        rw [List.length_cons, Nat.succ_mul] at hroom
        rw [List.zipIdx_cons, List.foldlM_cons, List.find?_cons]
        by_cases hrow : row.length = cols
        · have happend : appendRow cols data (row, k) = .ok (data ++ row) :=
            appendRow_eq_ok_iff.2 ⟨hrow, by omega, rfl⟩
          rw [happend, ok_bind, ih _ _ (by rw [List.length_append]; omega)]
          simp [hrow]
        · have hragged : (row.length != cols) = true := by simpa using hrow
          simp [appendRow, hrow, hragged, refuse]
  rw [Storable] at h
  exact hgeneral [] 0 (by simpa using h)

/-- Rows that are put one behind the other have one length, and there is room for
all of them. -/
theorem fits_of_extend_eq_ok {rows : List (List R)} {all : List R}
    (h : extend cols rows = .ok all) :
    (∀ row ∈ rows, row.length = cols) ∧ Storable rows.length cols := by
  have hgeneral : ∀ (data : List R) (k : ℕ), data.length ≤ capacity →
      (rows.zipIdx k).foldlM (appendRow cols) data = .ok all →
      (∀ row ∈ rows, row.length = cols) ∧
        data.length + rows.length * cols ≤ capacity := by
    clear h
    induction rows with
    | nil =>
        intro data _ hdata _
        exact ⟨by simp, by simpa using hdata⟩
    | cons row rows ih =>
        intro data k hdata h
        rw [List.zipIdx_cons, List.foldlM_cons] at h
        obtain ⟨next, hnext, h⟩ := bind_eq_ok_iff.1 h
        obtain ⟨hrow, hroom, rfl⟩ := appendRow_eq_ok_iff.1 hnext
        dsimp only at hrow h
        have hlength : (data ++ row).length = data.length + cols := by
          rw [List.length_append, hrow]
        obtain ⟨hrows, hfits⟩ := ih _ (k + 1) (hlength ▸ hroom) h
        rw [List.length_cons, Nat.succ_mul]
        exact ⟨List.forall_mem_cons.2 ⟨hrow, hrows⟩, by omega⟩
  obtain ⟨hrows, hfits⟩ := hgeneral [] 0 (Nat.zero_le _) h
  rw [List.length_nil, Nat.zero_add] at hfits
  exact ⟨hrows, hfits⟩

theorem raggedRow?_eq_none_iff {cols : ℕ} {rows : List (List R)} :
    Mat.raggedRow? cols rows = none ↔ ∀ row ∈ rows, row.length = cols := by
  rw [Mat.raggedRow?, List.find?_eq_none]
  constructor
  · intro h row hrow
    obtain ⟨i, hi⟩ := List.getElem?_of_mem hrow
    simpa using h (row, i) (List.mk_mem_zipIdx_iff_getElem?.2 hi)
  · rintro h ⟨row, i⟩ hmem
    have hrow := List.mem_of_getElem? (List.mk_mem_zipIdx_iff_getElem?.1 hmem)
    simp [h row hrow]

/-- A matrix that is built, from the table of its cells. -/
theorem stored_build (operation : MatOperation) {f : Fin rows → Fin cols → R}
    {g : ℕ → ℕ → R} (h : ∀ i j, f i j = g i j) :
    stored (Mat.build operation rows cols f) =
      if 0 < rows ∧ 0 < cols then .ok (table rows cols g)
      else refuse (.emptyShape operation rows cols) := by
  have hcells : (Cells.ofFn f).store = table rows cols g :=
    store_ofFn fun i j => by rw [Cells.entry_ofFn, h]
  rw [Mat.build]
  split
  · exact congrArg Except.ok hcells
  · rfl

theorem getElem?_columnMajor (c : ColumnMajor R) {i j : ℕ} (hi : i < c.rows)
    (hj : j < c.cols) :
    c.toList[j * c.rows + i]? = some (c.entry ⟨i, hi⟩ ⟨j, hj⟩) := by
  have hplace := ColumnMajor.place_lt ⟨i, hi⟩ ⟨j, hj⟩
  dsimp only at hplace
  rw [ColumnMajor.toList, List.getElem?_eq_getElem (by simpa using hplace)]
  rfl

/-- Storage by columns has a cell for every index inside of the shape. -/
theorem read_columnMajor (c : ColumnMajor R) {i j : ℕ} (hi : i < c.rows)
    (hj : j < c.cols) : c.read i j = .ok (c.entry ⟨i, hi⟩ ⟨j, hj⟩) := by
  rw [ColumnMajor.read, if_pos ⟨hi, hj⟩, getElem?_columnMajor c hi hj]

end RowMajor

end SciCalc
