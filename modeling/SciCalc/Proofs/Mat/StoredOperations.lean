import SciCalc.Proofs.Mat.RowMajor

/-!
# Operations on stored cells

Matrices are made and combined by loops over a list of cells that nothing ties
to the shape. Every loop leaves as many cells as its result has places, so each
operation on stored cells is the one on matrices; where it makes room for its
result, that is so if there is room for all of it.
-/

namespace SciCalc

open Outcome

variable {R : Type} [Scalar R]

namespace Cells

variable {m n : ℕ}

/-- The cell at an index, and zero at an index outside. -/
def cellAt (c : Cells R m n) (i j : ℕ) : R :=
  if h : i < m ∧ j < n then c.entry ⟨i, h.1⟩ ⟨j, h.2⟩ else 0

theorem cellAt_val (c : Cells R m n) (i : Fin m) (j : Fin n) :
    c.cellAt i j = c.entry i j := by
  rw [cellAt, dif_pos ⟨i.isLt, j.isLt⟩]

theorem cellAt_of_not {c : Cells R m n} {i j : ℕ} (h : ¬(i < m ∧ j < n)) :
    c.cellAt i j = 0 :=
  dif_neg h

theorem store_eq_table (c : Cells R m n) :
    c.store = RowMajor.table m n c.cellAt :=
  RowMajor.store_ofFn fun i j => (c.cellAt_val i j).symm

theorem read_store (c : Cells R m n) {i j : ℕ} (hi : i < m) (hj : j < n) :
    c.store.read i j = .ok (c.cellAt i j) := by
  rw [store_eq_table, RowMajor.read_table hi hj]

theorem length_toList (c : Cells R m n) : c.toList.length = m * n := by
  have hdata : c.toList = (RowMajor.table m n c.cellAt).data :=
    congrArg RowMajor.data c.store_eq_table
  rw [hdata, RowMajor.length_data_table]

end Cells

namespace RowMajor

variable {m n rows cols : ℕ}

theorem zeros_of_pos (hrows : 0 < rows) (hcols : 0 < cols)
    (hroom : Storable rows cols) :
    (zeros rows cols : Except (StorageFault R) (RowMajor R)) =
      .ok (table rows cols fun _ _ => 0) := by
  rw [zeros, checkShape_of_pos _ hrows hcols, ok_bind, wrap_of_storable hroom]
  dsimp only
  rw [reserve_of_storable hroom, ok_bind, table, List.map_const', length_grid]
  rfl

theorem zeros_of_empty (h : ¬(0 < rows ∧ 0 < cols)) :
    (zeros rows cols : Except (StorageFault R) (RowMajor R)) =
      refuse (.emptyShape .zeros rows cols) := by
  rw [zeros, checkShape_of_empty _ h]
  rfl

/-- Values written over zeros give the table that is zero wherever nothing is
written. -/
theorem fill_zeros {targets : List (ℕ × ℕ)}
    {value : ℕ × ℕ → Except (StorageFault R) R} {g : ℕ → ℕ → R}
    (hwritten : ∀ i j, (i, j) ∈ targets →
      i < rows ∧ j < cols ∧ value (i, j) = .ok (g i j))
    (hrest : ∀ i j, i < rows → j < cols → (i, j) ∉ targets → g i j = 0) :
    (table rows cols fun _ _ => 0).fill targets value =
      .ok (table rows cols g) := by
  rw [fill_table hwritten]
  refine congrArg Except.ok (table_congr fun i j hi hj => ?_)
  split
  · rfl
  · next hmem => exact (hrest i j hi hj hmem).symm

theorem zeros_eq (hroom : Storable rows cols) :
    (zeros rows cols : Except (StorageFault R) (RowMajor R)) =
      stored (Mat.zeros rows cols) := by
  rw [Mat.zeros, stored_build (g := fun _ _ => 0) .zeros fun _ _ => rfl]
  split
  · next h => exact zeros_of_pos h.1 h.2 hroom
  · next h => exact zeros_of_empty h

theorem identity_eq (hroom : Storable n n) :
    (identity n : Except (StorageFault R) (RowMajor R)) =
      stored (Mat.identity n) := by
  rw [Mat.identity,
    stored_build (g := fun i j => if i = j then 1 else 0) .zeros
      fun i j => by simp only [Fin.ext_iff]]
  split
  · next h =>
    rw [identity, zeros_of_pos h.1 h.2 hroom, ok_bind]
    apply fill_zeros
    · intro i j hmem
      obtain ⟨k, hk, ⟨⟩⟩ := List.mem_map.1 hmem
      have hk := List.mem_range.1 hk
      exact ⟨hk, hk, by rw [if_pos rfl]⟩
    · intro i j hi _ hmem
      rw [if_neg]
      rintro rfl
      exact hmem (List.mem_map.2 ⟨i, List.mem_range.2 hi, rfl⟩)
  · next h =>
    rw [identity, zeros_of_empty h]
    rfl

/-- What is stored of a matrix that is made of rows. -/
theorem stored_ofRows (rows : List (List R)) :
    stored (Mat.ofRows rows) =
      if 0 < rows.length ∧ 0 < (rows.headD []).length then
        match Mat.raggedRow? (rows.headD []).length rows with
        | none => .ok ⟨rows.length, (rows.headD []).length, rows.flatten⟩
        | some (row, i) =>
          refuse (.raggedRow (rows.headD []).length row.length i)
      else refuse (.emptyShape .ofRows rows.length (rows.headD []).length) := by
  rw [Mat.ofRows]
  by_cases hshape : 0 < rows.length ∧ 0 < (rows.headD []).length
  · rw [if_pos hshape]
    simp only [Mat.build, dif_pos hshape]
    cases hragged : Mat.raggedRow? (rows.headD []).length rows with
    | some found => rfl
    | none =>
        refine congrArg Except.ok ((store_ofFn fun i j => ?_).trans
          (table_of_rows rfl (raggedRow?_eq_none_iff.1 hragged)
            (f := fun i j => ((rows[i]?).getD []).getD j 0) ?_))
        · simp
        · intro i j hi hj
          dsimp only at hi hj
          have hwidth := raggedRow?_eq_none_iff.1 hragged _
            (List.getElem_mem hi)
          rw [← hwidth] at hj
          simp [hi, hj]
  · rw [if_neg hshape]
    simp only [Mat.build, dif_neg hshape]
    rfl

theorem ofRows_eq {rows : List (List R)}
    (hroom : Storable rows.length (rows.headD []).length) :
    ofRows rows = stored (Mat.ofRows rows) := by
  rw [stored_ofRows, ofRows]
  split
  · next hshape =>
    rw [checkShape_of_pos _ hshape.1 hshape.2, ok_bind,
      wrap_of_storable hroom, reserve_of_storable hroom, ok_bind,
      extend_eq hroom]
    cases Mat.raggedRow? (rows.headD []).length rows <;> rfl
  · next hshape =>
    rw [checkShape_of_empty _ hshape]
    rfl

theorem ofRowMajor_eq {values : List R}
    (hcells : wrap values.length (rows * cols) = rows * cols) :
    ofRowMajor rows cols values = stored (Mat.ofRowMajor rows cols values) := by
  rw [ofRowMajor, Mat.ofRowMajor, hcells]
  by_cases hshape : 0 < rows ∧ 0 < cols
  · simp only [Mat.build, dif_pos hshape, List.size_toArray,
      checkShape_of_pos _ hshape.1 hshape.2, ok_bind]
    by_cases hcount : values.length = rows * cols
    · rw [if_pos hcount, if_pos hcount]
      refine congrArg Except.ok ((store_ofFn fun i j => ?_).trans
        (table_of_list hcount)).symm
      simp [Array.getD_eq_getD_getElem?]
    · rw [if_neg hcount, if_neg hcount]
      rfl
  · simp only [Mat.build, dif_neg hshape, checkShape_of_empty _ hshape]
    rfl

theorem ofColumnMajor_eq {c : ColumnMajor R} (hroom : Storable c.rows c.cols) :
    ofColumnMajor c = stored c.toMat := by
  set cells := Cells.ofFn c.entry with hcells
  have hentry : ∀ (i : Fin c.rows) (j : Fin c.cols),
      c.entry i j = cells.cellAt i j := by
    intro i j
    rw [Cells.cellAt_val, hcells, Cells.entry_ofFn]
  rw [ColumnMajor.toMat, stored_build _ hentry, ofColumnMajor]
  split
  · next h =>
    have hloop : (grid c.rows c.cols).mapM
        (fun place => c.read place.1 place.2) =
          .ok (table c.rows c.cols cells.cellAt).data := by
      apply mapM_eq_ok_map
      rintro ⟨i, j⟩ hmem
      obtain ⟨hi, hj⟩ := mem_grid_iff.1 hmem
      rw [read_columnMajor c hi hj, hentry]
    rw [checkShape_of_pos _ h.1 h.2, ok_bind, reserve_of_storable hroom,
      ok_bind, hloop]
    rfl
  · next h =>
    rw [checkShape_of_empty _ h]
    rfl

/-! ## Operations on the cells of a matrix -/

theorem store_eq_table (a : Mat R) :
    a.store = table a.rows a.cols a.cells.cellAt :=
  a.cells.store_eq_table

theorem getD_get? (a : Mat R) (i j : ℕ) :
    (a.get? i j).getD 0 = a.cells.cellAt i j := by
  rw [Mat.get?, Cells.cellAt]
  split <;> rfl

theorem set_eq (a : Mat R) (i j : ℕ) (value : R) :
    a.store.set i j value = stored (a.set i j value) := by
  have hset : a.store.set i j value =
      if i < a.rows ∧ j < a.cols then a.store.write i j value
      else refuse (.outsideIndex a.rows a.cols i j) := rfl
  rw [hset, Mat.set]
  split
  · next h =>
    rw [store_eq_table, write_table h.1 h.2]
    refine congrArg Except.ok (store_ofFn fun i' j' => ?_).symm
    rw [Cells.entry_ofFn, Cells.cellAt_val]
    simp only [Prod.mk.injEq]
    rfl
  · rfl

theorem resized_eq (a : Mat R) (hroom : Storable rows cols) :
    a.store.resized rows cols = stored (a.resized rows cols) := by
  have hresized : a.store.resized rows cols =
      zeros rows cols >>= fun t =>
        t.fill (grid (min rows a.rows) (min cols a.cols)) fun place =>
          a.store.read place.1 place.2 := rfl
  rw [hresized, Mat.resized,
    stored_build (g := a.cells.cellAt) _ fun i j => getD_get? a i j]
  split
  · next h =>
    rw [zeros_of_pos h.1 h.2 hroom, ok_bind]
    apply fill_zeros
    · intro i j hmem
      rw [mem_grid_iff] at hmem
      exact ⟨by omega, by omega, a.cells.read_store (by omega) (by omega)⟩
    · intro i j hi hj hmem
      rw [mem_grid_iff] at hmem
      exact Cells.cellAt_of_not (by omega)
  · next h =>
    rw [zeros_of_empty h]
    rfl

theorem store_transpose (a : Mat R) :
    a.transpose.store = table a.cols a.rows fun j i => a.cells.cellAt i j :=
  store_ofFn fun j i => (Cells.entry_transpose a.cells i j).trans
    (a.cells.cellAt_val i j).symm

theorem transpose_eq (a : Mat R) :
    a.store.transpose = .ok a.transpose.store := by
  have htranspose : a.store.transpose =
      ((grid a.cols a.rows).mapM fun place =>
        a.store.read place.2 place.1) >>= fun data =>
          .ok ⟨a.cols, a.rows, data⟩ := rfl
  have hloop : ((grid a.cols a.rows).mapM fun place =>
      a.store.read place.2 place.1) =
        .ok (table a.cols a.rows fun j i => a.cells.cellAt i j).data := by
    apply mapM_eq_ok_map
    rintro ⟨j, i⟩ hmem
    obtain ⟨hj, hi⟩ := mem_grid_iff.1 hmem
    exact a.cells.read_store hi hj
  rw [htranspose, hloop, store_transpose]
  rfl

/-- Storing the result of a calculation and transposing its cells. -/
theorem stored_bind_transpose (made : Except (MatError R) (Mat R)) :
    (stored made >>= transpose) = stored (made.map Mat.transpose) := by
  have hstored : ∀ a : Mat R, a.store.transpose = stored (.ok a.transpose) :=
    transpose_eq
  rw [stored_bind hstored]
  cases made <;> rfl

/-- What remains when a place is left out, as `Cells.skip` numbers it. -/
def bump (gap i : ℕ) : ℕ :=
  if i < gap then i else i + 1

theorem skip_val (gap : Fin (n + 1)) (i : Fin n) :
    (Cells.skip gap i).val = bump gap i := by
  rw [Cells.skip, bump]
  split <;> rfl

theorem bump_lt {gap i n : ℕ} (h : i < n) : bump gap i < n + 1 := by
  rw [bump]
  split <;> omega

/-- Leaving out a number is counting past it. -/
theorem filter_range_ne {gap n : ℕ} (h : gap ≤ n) :
    (List.range (n + 1)).filter (· != gap) = (List.range n).map (bump gap) := by
  induction n with
  | zero =>
      obtain rfl : gap = 0 := by omega
      rfl
  | succ n ih =>
      rw [List.range_succ, List.filter_append]
      rcases Nat.lt_or_ge n gap with hlast | hearlier
      · obtain rfl : gap = n + 1 := by omega
        have hkept : (List.range (n + 1)).filter (· != n + 1) =
            List.range (n + 1) := by
          rw [List.filter_eq_self]
          intro i hi
          have := List.mem_range.1 hi
          simp only [bne_iff_ne]
          omega
        have hbump : (List.range (n + 1)).map (bump (n + 1)) =
            List.range (n + 1) := by
          rw [List.map_congr_left (g := id), List.map_id]
          intro i hi
          exact if_pos (List.mem_range.1 hi)
        rw [hkept, hbump]
        simp
      · have hkept : (n + 1 != gap) = true := by
          simp only [bne_iff_ne]
          omega
        have hbump : bump gap n = n + 1 := if_neg (Nat.not_lt.2 hearlier)
        rw [ih hearlier, List.range_succ, List.map_append, List.map_singleton,
          hbump, List.filter_eq_self.2 (by simpa using hkept)]

theorem places_map (f g : ℕ → ℕ) (rows cols : List ℕ) :
    places (rows.map f) (cols.map g) =
      (places rows cols).map fun place => (f place.1, g place.2) := by
  simp [places, List.flatMap_map, List.map_flatMap, Function.comp_def]

theorem minor_cells (c : Cells R (m + 2) (n + 2)) (row : Fin (m + 2))
    (col : Fin (n + 2)) :
    c.store.minor row col = .ok (c.minor row col).store := by
  have hkept : places ((List.range (m + 2)).filter (· != row.val))
      ((List.range (n + 2)).filter (· != col.val)) =
        (grid (m + 1) (n + 1)).map fun place =>
          (bump row place.1, bump col place.2) := by
    rw [filter_range_ne (Nat.le_of_lt_succ row.isLt),
      filter_range_ne (Nat.le_of_lt_succ col.isLt), places_map]
    rfl
  have hloop : ((grid (m + 1) (n + 1)).map fun place =>
      (bump row place.1, bump col place.2)).mapM (fun place =>
        c.store.read place.1 place.2) =
      .ok (table (m + 1) (n + 1) fun i j =>
        c.cellAt (bump row i) (bump col j)).data := by
    rw [List.mapM_map]
    apply mapM_eq_ok_map
    rintro ⟨i, j⟩ hmem
    obtain ⟨hi, hj⟩ := mem_grid_iff.1 hmem
    exact c.read_store (bump_lt hi) (bump_lt hj)
  have hcells : (c.minor row col).store = table (m + 1) (n + 1) fun i j =>
      c.cellAt (bump row i) (bump col j) :=
    store_ofFn fun i j => by
      rw [Cells.entry_minor, ← skip_val, ← skip_val, Cells.cellAt_val]
  have hminor : c.store.minor row col =
      if m + 2 < 2 ∨ n + 2 < 2 ∨ m + 2 ≤ row.val ∨ n + 2 ≤ col.val then
        refuse (.noMinor (m + 2) (n + 2) row col)
      else (places ((List.range (m + 2)).filter (· != row.val))
        ((List.range (n + 2)).filter (· != col.val))).mapM (fun place =>
          c.store.read place.1 place.2) >>= ofRowMajor (m + 1) (n + 1) := rfl
  rw [hminor, if_neg (by omega), hkept, hloop, ok_bind,
    ofRowMajor_data (Nat.succ_pos m) (Nat.succ_pos n), hcells]

omit [Scalar R] in
theorem minor_refused {a : Mat R} {row col : ℕ}
    (h : a.rows < 2 ∨ a.cols < 2 ∨ a.rows ≤ row ∨ a.cols ≤ col) :
    a.minor row col =
      .error (.dimension (.noMinor a.rows a.cols row col)) := by
  unfold Mat.minor
  split
  · dsimp only at h
    rw [dif_neg (by omega)]
  · rfl

/-- A matrix with two rows and two columns at least has a minor at each index
inside. -/
theorem minor_eq (a : Mat R) (row col : ℕ) :
    a.store.minor row col = stored (a.minor row col) := by
  by_cases hfit : a.rows < 2 ∨ a.cols < 2 ∨ a.rows ≤ row ∨ a.cols ≤ col
  · have hminor : a.store.minor row col =
        refuse (.noMinor a.rows a.cols row col) := if_pos hfit
    rw [hminor, minor_refused hfit]
    rfl
  · obtain ⟨m, n, c, hm, hn⟩ := a
    dsimp only at hfit
    obtain ⟨m, rfl⟩ := Nat.exists_eq_add_of_le' (by omega : 2 ≤ m)
    obtain ⟨n, rfl⟩ := Nat.exists_eq_add_of_le' (by omega : 2 ≤ n)
    have hinside : row < m + 2 ∧ col < n + 2 := by omega
    have hmade : (Mat.mk (m + 2) (n + 2) c hm hn).minor row col =
        .ok ⟨m + 1, n + 1, c.minor ⟨row, hinside.1⟩ ⟨col, hinside.2⟩,
          Nat.succ_pos m, Nat.succ_pos n⟩ := dif_pos hinside
    rw [hmade]
    exact minor_cells c ⟨row, hinside.1⟩ ⟨col, hinside.2⟩

theorem cellwise_eq (operation : MatOperation) (f : R → R → R) (a b : Mat R) :
    cellwise operation f a.store b.store =
      stored (Mat.cellwise operation f a b) := by
  obtain ⟨m, n, c, hm, hn⟩ := a
  obtain ⟨m', n', d, hm', hn'⟩ := b
  by_cases hshape : m = m' ∧ n = n'
  · obtain ⟨rfl, rfl⟩ := hshape
    have hdata : List.zipWith f c.toList d.toList =
        (table m n fun i j => f (c.cellAt i j) (d.cellAt i j)).data := by
      have hc : c.toList = (table m n c.cellAt).data :=
        congrArg RowMajor.data c.store_eq_table
      have hd : d.toList = (table m n d.cellAt).data :=
        congrArg RowMajor.data d.store_eq_table
      rw [hc, hd, table, table, List.zipWith_map, List.zipWith_self]
      rfl
    have hcells : (Cells.ofFn fun i j => f (c.entry i j) (d.entry i j)).store =
        table m n fun i j => f (c.cellAt i j) (d.cellAt i j) :=
      store_ofFn fun i j => by
        rw [Cells.entry_ofFn, Cells.cellAt_val, Cells.cellAt_val]
    have hstored : cellwise operation f (Mat.mk m n c hm hn).store
        (Mat.mk m n d hm' hn').store =
          ofRowMajor m n (List.zipWith f c.toList d.toList) :=
      if_pos ⟨rfl, rfl⟩
    have hmade : Mat.cellwise operation f (Mat.mk m n c hm hn)
        (Mat.mk m n d hm' hn') =
          .ok ⟨m, n, Cells.ofFn fun i j => f (c.entry i j) (d.entry i j),
            hm, hn⟩ := dif_pos ⟨rfl, rfl⟩
    rw [hstored, hmade, hdata, ofRowMajor_data hm hn, ← hcells]
    rfl
  · have hstored : cellwise operation f (Mat.mk m n c hm hn).store
        (Mat.mk m' n' d hm' hn').store =
          refuse (.unequalShapes operation m n m' n') := if_neg hshape
    have hrefused : Mat.cellwise operation f (Mat.mk m n c hm hn)
        (Mat.mk m' n' d hm' hn') =
          .error (.dimension (.unequalShapes operation m n m' n')) :=
      dif_neg hshape
    rw [hstored, hrefused]
    rfl

theorem multiply_eq (a b : Mat R)
    (hroom : a.cols = b.rows → Storable a.rows b.cols) :
    a.store.multiply b.store = stored (a.multiply b) := by
  obtain ⟨m, n, c, hm, hn⟩ := a
  obtain ⟨n', k, d, hn', hk⟩ := b
  by_cases hinner : n = n'
  · subst hinner
    have hstored : (Mat.mk m n c hm hn).store.multiply
        (Mat.mk n k d hn' hk).store =
          zeros m k >>= fun product =>
            product.fill (grid m k) fun place =>
              (List.range n).foldlM (fun sum l => do
                return sum + (← c.store.read place.1 l) *
                  (← d.store.read l place.2)) 0 := if_pos rfl
    have hmade : (Mat.mk m n c hm hn).multiply (Mat.mk n k d hn' hk) =
        .ok ⟨m, k, Cells.ofFn fun i j =>
          Scalar.sum n fun l => c.entry i l * d.entry l j, hm, hk⟩ :=
      dif_pos rfl
    have hcells : (Cells.ofFn fun i j =>
        Scalar.sum n fun l => c.entry i l * d.entry l j).store =
          table m k fun i j =>
            Scalar.sum n fun l => c.cellAt i l * d.cellAt l j :=
      store_ofFn fun i j => by
        rw [Cells.entry_ofFn]
        simp only [Cells.cellAt_val]
    rw [hstored, hmade, zeros_of_pos hm hk (hroom rfl), ok_bind]
    refine (fill_zeros ?_ ?_).trans (congrArg Except.ok hcells.symm)
    · intro i j hmem
      obtain ⟨hi, hj⟩ := mem_grid_iff.1 hmem
      refine ⟨hi, hj, foldlM_range_eq_ok (fun sum l => ?_) 0⟩
      rw [c.read_store hi l.isLt, d.read_store l.isLt hj]
      rfl
    · intro i j hi hj hmem
      exact absurd (mem_grid_iff.2 ⟨hi, hj⟩) hmem
  · have hstored : (Mat.mk m n c hm hn).store.multiply
        (Mat.mk n' k d hn' hk).store = refuse (.innerSizes n n') :=
      if_neg hinner
    have hrefused : (Mat.mk m n c hm hn).multiply (Mat.mk n' k d hn' hk) =
        .error (.dimension (.innerSizes n n')) := dif_neg hinner
    rw [hstored, hrefused]
    rfl

/-- The expansion runs into minors of two rows at the smallest; their size is
the recursion. -/
theorem cofactorDet_eq : ∀ {n : ℕ} (c : Cells R n n), 0 < n →
    cofactorDet n c.store = .ok c.cofactorDet := by
  intro n c hn
  match n with
  | 1 => exact c.read_store Nat.one_pos Nat.one_pos
  | 2 =>
      have hread := fun i j (hi : i < 2) (hj : j < 2) => c.read_store hi hj
      rw [cofactorDet, hread 0 0, hread 1 1, hread 0 1, hread 1 0]
      · rfl
      all_goals decide
  | n + 3 =>
      rw [cofactorDet, Cells.cofactorDet]
      refine foldlM_range_eq_ok (fun det j => ?_) 0
      have hread := c.read_store (Nat.succ_pos (n + 2)) j.isLt
      have hminor := minor_cells c 0 j
      have hcofactor := cofactorDet_eq (c.minor 0 j) (Nat.succ_pos (n + 1))
      have hcell : c.cellAt 0 j = c.entry 0 j := c.cellAt_val 0 j
      rw [Fin.val_zero] at hminor
      simp only [hread, hminor, hcofactor, hcell, ok_bind]
      rfl

/-- The cells of an adjugate are written column after column. -/
theorem fill_adjugate (c : Cells R (n + 2) (n + 2)) (det : R) :
    (table (n + 2) (n + 2) fun _ _ => (0 : R)).fill
      ((grid (n + 2) (n + 2)).map Prod.swap) (fun place => do
        let minor ← c.store.minor place.2 place.1
        return Scalar.alternating (place.2 + place.1) *
          (← cofactorDet minor.rows minor) / det) =
      .ok (c.adjugateOver det).store := by
  have hmem : ∀ j i, (j, i) ∈ (grid (n + 2) (n + 2)).map Prod.swap ↔
      j < n + 2 ∧ i < n + 2 := by
    intro j i
    rw [List.mem_map]
    constructor
    · rintro ⟨⟨i, j⟩, hplace, ⟨⟩⟩
      exact (mem_grid_iff.1 hplace).symm
    · intro hplace
      exact ⟨(i, j), mem_grid_iff.2 hplace.symm, rfl⟩
  rw [Cells.store_eq_table (c.adjugateOver det)]
  apply fill_zeros
  · intro j i hplace
    obtain ⟨hj, hi⟩ := (hmem j i).1 hplace
    have hminor := minor_cells c ⟨i, hi⟩ ⟨j, hj⟩
    have hcofactor := cofactorDet_eq (c.minor ⟨i, hi⟩ ⟨j, hj⟩) (Nat.succ_pos n)
    have hcell : (c.adjugateOver det).cellAt j i = Scalar.alternating (i + j) *
        (c.minor ⟨i, hi⟩ ⟨j, hj⟩).cofactorDet / det :=
      ((c.adjugateOver det).cellAt_val ⟨j, hj⟩ ⟨i, hi⟩).trans
        (Cells.entry_ofFn _ _ _)
    have hrows : (c.minor ⟨i, hi⟩ ⟨j, hj⟩).store.rows = n + 1 := rfl
    refine ⟨hj, hi, ?_⟩
    dsimp only at hminor ⊢
    rw [hminor, ok_bind, hcell, hrows, hcofactor]
    rfl
  · intro j i hj hi hplace
    exact absurd ((hmem j i).2 ⟨hj, hi⟩) hplace

theorem adjugate_stored {m : Nat} (c : Cells R m m) (hm : 0 < m)
    (hroom : Storable m m) (det : R) :
    (if m = 1 then ofRowMajor 1 1 [1 / det]
      else zeros m m >>= fun t =>
        t.fill ((grid m m).map Prod.swap) fun place => do
          let minor ← c.store.minor place.2 place.1
          return Scalar.alternating (place.2 + place.1) *
            (← cofactorDet minor.rows minor) / det) =
      .ok (c.adjugateOver det).store := by
  rcases m with _ | _ | m
  · exact absurd hm (Nat.lt_irrefl 0)
  · exact ofRowMajor_data Nat.one_pos Nat.one_pos fun _ _ => 1 / det
  · rw [if_neg (by omega), zeros_of_pos hm hm hroom, ok_bind, fill_adjugate]

theorem inverse_eq (a : Mat R) (hroom : Storable a.rows a.cols) :
    a.store.inverse = stored a.inverse := by
  obtain ⟨m, n, c, hm, hn⟩ := a
  by_cases hsquare : m = n
  · subst hsquare
    have hcells : (Mat.mk m m c hm hn).squareCells rfl = c :=
      Cells.ext fun i j => Cells.entry_ofFn _ i j
    have hstored : (Mat.mk m m c hm hn).store.inverse =
        cofactorDet m c.store >>= fun det =>
          if Scalar.less (Scalar.abs det) Mat.singularTolerance then
            .error (.refused (.singular det))
          else if m = 1 then ofRowMajor 1 1 [1 / det]
          else zeros m m >>= fun t =>
            t.fill ((grid m m).map Prod.swap) fun place => do
              let minor ← c.store.minor place.2 place.1
              return Scalar.alternating (place.2 + place.1) *
                (← cofactorDet minor.rows minor) / det := if_pos rfl
    have hmade : (Mat.mk m m c hm hn).inverse =
        if Scalar.less (Scalar.abs c.cofactorDet) Mat.singularTolerance then
          .error (.singular c.cofactorDet)
        else .ok ⟨m, m, c.adjugateOver c.cofactorDet, hm, hm⟩ := by
      rw [Mat.inverse, dif_pos rfl]
      simp only [hcells]
    rw [hstored, hmade, cofactorDet_eq c hm, ok_bind]
    split
    · rfl
    · rw [adjugate_stored c hm hroom]
      rfl
  · have hstored : (Mat.mk m n c hm hn).store.inverse =
        refuse (.notSquare .inverse m n) := if_neg hsquare
    have hrefused : (Mat.mk m n c hm hn).inverse =
        .error (.dimension (.notSquare .inverse m n)) := dif_neg hsquare
    rw [hstored, hrefused]
    rfl

end RowMajor

end SciCalc
