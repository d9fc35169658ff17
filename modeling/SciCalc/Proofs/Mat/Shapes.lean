import SciCalc.Proofs.Mat.StoredOperations

/-!
# Shapes of results

The shape of a result is known from the shapes of the operands. A list of stored
cells keeps its length while it is written to. So one that is made for a shape
without room for all its places stays too short: a loop over all places comes to
one behind the last cell, and a loop over fewer of them leaves a list that does not
have the cells of its shape.
-/

namespace SciCalc

open Outcome

variable {R : Type}

/-! ## Matrices -/

namespace Mat

variable {a b d : Mat R}

/-- The shapes of operands and result where cells are combined one by one. -/
theorem shape_of_cellwise {operation : MatOperation} {f : R → R → R}
    (h : cellwise operation f a b = .ok d) :
    (a.rows = b.rows ∧ a.cols = b.cols) ∧ d.rows = a.rows ∧ d.cols = a.cols := by
  rw [cellwise] at h
  split at h
  · next hshape =>
    cases h
    exact ⟨hshape, rfl, rfl⟩
  · cases h

theorem shape_of_build {operation : MatOperation} {rows cols : ℕ}
    {f : Fin rows → Fin cols → R} (h : build operation rows cols f = .ok d) :
    d.rows = rows ∧ d.cols = cols := by
  rw [build] at h
  split at h
  · cases h
    exact ⟨rfl, rfl⟩
  · cases h

theorem shape_of_set {i j : ℕ} {value : R} (h : a.set i j value = .ok d) :
    d.rows = a.rows ∧ d.cols = a.cols := by
  rw [set] at h
  split at h
  · cases h
    exact ⟨rfl, rfl⟩
  · cases h

theorem shape_of_minor {row col : ℕ} (h : a.minor row col = .ok d) :
    d.rows + 1 = a.rows ∧ d.cols + 1 = a.cols := by
  unfold minor at h
  split at h
  · split at h
    · cases h
      exact ⟨rfl, rfl⟩
    · cases h
  · cases h

variable [Scalar R]

/-- The shapes of factors and product. -/
theorem shape_of_multiply (h : a.multiply b = .ok d) :
    a.cols = b.rows ∧ d.rows = a.rows ∧ d.cols = b.cols := by
  rw [multiply] at h
  split at h
  · next hinner =>
    cases h
    exact ⟨hinner, rfl, rfl⟩
  · cases h

theorem shape_of_inverse (h : a.inverse = .ok d) :
    a.rows = a.cols ∧ d.rows = a.rows ∧ d.cols = a.rows := by
  rw [inverse] at h
  split at h
  · next hsquare =>
    dsimp only at h
    split at h
    · cases h
    · cases h
      exact ⟨hsquare, rfl, rfl⟩
  · cases h

end Mat

/-! ## Stored cells -/

namespace RowMajor

/-- Two lists of cells of one length, in one shape. -/
structure SameSize (s t : RowMajor R) : Prop where
  rows : t.rows = s.rows
  cols : t.cols = s.cols
  length : t.data.length = s.data.length

namespace SameSize

variable {s t u : RowMajor R}

theorem trans (h : s.SameSize t) (h' : t.SameSize u) : s.SameSize u :=
  ⟨h'.rows.trans h.rows, h'.cols.trans h.cols, h'.length.trans h.length⟩

/-- A cell is looked for at the same place. -/
theorem place_eq (h : s.SameSize t) (i j : ℕ) : t.place i j = s.place i j := by
  rw [place, place, h.cols, h.length]

end SameSize

variable {s t : RowMajor R} {rows cols : ℕ}

theorem sameSize_of_write {i j : ℕ} {value : R} (h : s.write i j value = .ok t) :
    s.SameSize t ∧ s.place i j < s.data.length := by
  rw [write] at h
  split at h
  · next hinside =>
    cases h
    exact ⟨⟨rfl, rfl, List.length_set⟩, hinside.2.2⟩
  · cases h

/-- The induction is on the places; each is one of the list that is written to
first, which all later ones have the size of. -/
theorem sameSize_of_fill {targets : List (ℕ × ℕ)}
    {value : ℕ × ℕ → Except (StorageFault R) R}
    (h : s.fill targets value = .ok t) :
    s.SameSize t ∧ ∀ i j, (i, j) ∈ targets → s.place i j < s.data.length := by
  induction targets generalizing s with
  | nil =>
      cases h
      exact ⟨⟨rfl, rfl, rfl⟩, by simp⟩
  | cons target targets ih =>
      rw [fill, List.foldlM_cons] at h
      obtain ⟨next, hnext, h⟩ := bind_eq_ok_iff.1 h
      obtain ⟨cell, -, hwrite⟩ := bind_eq_ok_iff.1 hnext
      obtain ⟨hsize, hfirst⟩ := sameSize_of_write hwrite
      obtain ⟨hrest, hplaces⟩ := ih h
      refine ⟨hsize.trans hrest, fun i j hmem => ?_⟩
      rcases List.mem_cons.1 hmem with rfl | hmem
      · exact hfirst
      · have hlater := hplaces i j hmem
        rwa [hsize.place_eq, hsize.length] at hlater

variable [Scalar R]

theorem size_of_zeros (h : zeros rows cols = .ok s) :
    s.rows = rows ∧ s.cols = cols ∧ s.data.length ≤ capacity := by
  obtain ⟨_, -, h⟩ := bind_eq_ok_iff.1 h
  obtain ⟨_, hreserve, h⟩ := bind_eq_ok_iff.1 h
  cases h
  refine ⟨rfl, rfl, ?_⟩
  rw [List.length_replicate]
  exact reserve_eq_ok_iff.1 hreserve

/-- A shape without room leaves a list that is too short. -/
theorem length_ne_of_resized (hroom : ¬Storable rows cols)
    (h : s.resized rows cols = .ok t) : t.data.length ≠ t.rows * t.cols := by
  obtain ⟨zeroed, hzeros, h⟩ := bind_eq_ok_iff.1 h
  obtain ⟨hrows, hcols, hlength⟩ := size_of_zeros hzeros
  obtain ⟨hsize, -⟩ := sameSize_of_fill h
  rw [hsize.rows, hsize.cols, hsize.length, hrows, hcols]
  rw [Storable] at hroom
  omega

/-- All cells of a product are written, so there is room for them: otherwise one of
the places is that of the cell behind the last one. -/
theorem storable_of_multiply {product : RowMajor R}
    (h : s.multiply t = .ok product) :
    s.cols = t.rows ∧ Storable s.rows t.cols := by
  rw [multiply] at h
  split at h
  · next hinner =>
    refine ⟨hinner, ?_⟩
    obtain ⟨zeroed, hzeros, h⟩ := bind_eq_ok_iff.1 h
    obtain ⟨-, hcols, hlength⟩ := size_of_zeros hzeros
    obtain ⟨-, hplaces⟩ := sameSize_of_fill h
    by_contra hroom
    have hbehind : zeroed.data.length < s.rows * t.cols :=
      Nat.lt_of_le_of_lt hlength (Nat.lt_of_not_le hroom)
    have hwidth : 0 < t.cols := Nat.pos_of_mul_pos_left (Nat.zero_lt_of_lt hbehind)
    have hinside := hplaces (zeroed.data.length / t.cols)
      (zeroed.data.length % t.cols)
      (mem_grid_iff.2 ⟨Nat.div_lt_of_lt_mul (Nat.mul_comm _ _ ▸ hbehind),
        Nat.mod_lt _ hwidth⟩)
    rw [place, hcols, Nat.div_add_mod', wrap_of_le le_rfl] at hinside
    exact Nat.lt_irrefl _ hinside
  · cases h

end RowMajor

end SciCalc
