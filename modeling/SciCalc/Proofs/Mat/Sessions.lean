import SciCalc.Proofs.Mat.Shapes

/-!
# Editing sessions on stored cells

A step on stored cells is the step on the matrix that they are the cells of, and
so is a run, as long as there is room for what the steps make. So no access to a
cell is out of range then, and the list of cells keeps as many cells as the shape
has places. A step without room for its result ends the calculation, or leaves a
list that is too short for its shape.
-/

namespace SciCalc

open Outcome

variable {R : Type} [Scalar R]

open RowMajor (Storable)

namespace MatSource

/-- The shape that is asked for. -/
def shape : MatSource R → ℕ × ℕ
  | zeros rows cols => (rows, cols)
  | identity n => (n, n)
  | ofRows rows => (rows.length, (rows.headD []).length)
  | ofRowMajor rows cols _ => (rows, cols)
  | ofColumnMajor c => (c.rows, c.cols)

/-- There is room for the cells of the matrix. -/
def Fits (source : MatSource R) : Prop :=
  Storable source.shape.1 source.shape.2

/-- What is made as stored cells is what is made as a matrix. -/
theorem store_eq {source : MatSource R} (h : source.Fits) :
    source.store = stored source.build := by
  cases source with
  | zeros rows cols => exact RowMajor.zeros_eq h
  | identity n => exact RowMajor.identity_eq h
  | ofRows rows => exact RowMajor.ofRows_eq h
  | ofRowMajor rows cols values =>
      exact RowMajor.ofRowMajor_eq (RowMajor.wrap_of_storable h _)
  | ofColumnMajor c => exact RowMajor.ofColumnMajor_eq h

theorem shape_of_build {source : MatSource R} {a : Mat R}
    (h : source.build = .ok a) : (a.rows, a.cols) = source.shape := by
  cases source with
  | zeros | identity | ofColumnMajor =>
      obtain ⟨hrows, hcols⟩ := Mat.shape_of_build h
      rw [hrows, hcols, shape]
  | ofRows rows =>
      rw [build, Mat.ofRows] at h
      split at h
      · cases h
      · next hbuild =>
        obtain ⟨hrows, hcols⟩ := Mat.shape_of_build hbuild
        split at h
        · cases h
        · cases h
          rw [hrows, hcols, shape]
  | ofRowMajor rows cols values =>
      rw [build, Mat.ofRowMajor] at h
      split at h
      · cases h
      · next hbuild =>
        obtain ⟨hrows, hcols⟩ := Mat.shape_of_build hbuild
        split at h
        · cases h
          rw [hrows, hcols, shape]
        · cases h

theorem shape_of_store {source : MatSource R} {s : RowMajor R}
    (h : source.store = .ok s) : (s.rows, s.cols) = source.shape := by
  cases source with
  | zeros rows cols =>
      obtain ⟨hrows, hcols, -⟩ := RowMajor.size_of_zeros h
      rw [hrows, hcols, shape]
  | identity n =>
      obtain ⟨zeroed, hzeros, h⟩ := bind_eq_ok_iff.1 h
      obtain ⟨hrows, hcols, -⟩ := RowMajor.size_of_zeros hzeros
      obtain ⟨hsize, -⟩ := RowMajor.sameSize_of_fill h
      rw [hsize.rows, hsize.cols, hrows, hcols, shape]
  | ofRows rows =>
      obtain ⟨_, -, h⟩ := bind_eq_ok_iff.1 h
      obtain ⟨_, -, h⟩ := bind_eq_ok_iff.1 h
      obtain ⟨all, -, h⟩ := bind_eq_ok_iff.1 h
      cases h
      rfl
  | ofRowMajor rows cols values =>
      obtain ⟨_, -, h⟩ := bind_eq_ok_iff.1 h
      dsimp only at h
      split at h
      · cases h
        rfl
      · cases h
  | ofColumnMajor c =>
      obtain ⟨_, -, h⟩ := bind_eq_ok_iff.1 h
      obtain ⟨_, -, h⟩ := bind_eq_ok_iff.1 h
      obtain ⟨data, -, h⟩ := bind_eq_ok_iff.1 h
      cases h
      rfl

theorem storable_of_build {source : MatSource R} (hroom : source.Fits)
    {a : Mat R} (h : source.build = .ok a) : Storable a.rows a.cols := by
  obtain ⟨hrows, hcols⟩ := Prod.mk.inj (shape_of_build h)
  rw [hrows, hcols]
  exact hroom

end MatSource

namespace MatEdit

/-- There is room for what the step makes of a matrix. Of the steps that can make
more cells out of fewer only a resize and a product are left. -/
def Fits (a : Mat R) : MatEdit R → Prop
  | resize rows cols => Storable rows cols
  | multiply right => a.cols = right.rows → Storable a.rows right.cols
  | _ => True

/-- There is room for what every step makes. -/
def AllFit (a : Mat R) : List (MatEdit R) → Prop
  | [] => True
  | e :: rest => e.Fits a ∧ AllFit (after a e) rest

variable {a b : Mat R} {e : MatEdit R}

theorem storable_of_apply (ha : Storable a.rows a.cols) (h : e.Fits a)
    (hb : apply a e = .ok b) : Storable b.rows b.cols := by
  cases e with
  | set i j value =>
      obtain ⟨hrows, hcols⟩ := Mat.shape_of_set hb
      rwa [hrows, hcols]
  | resize rows cols =>
      obtain ⟨hrows, hcols⟩ := Mat.shape_of_build hb
      rwa [hrows, hcols]
  | transpose =>
      cases hb
      exact RowMajor.storable_comm.1 ha
  | minor row col =>
      obtain ⟨hrows, hcols⟩ := Mat.shape_of_minor hb
      exact (Nat.mul_le_mul (by omega) (by omega)).trans ha
  | add right | subtract right =>
      obtain ⟨-, hrows, hcols⟩ := Mat.shape_of_cellwise hb
      rwa [hrows, hcols]
  | multiply right =>
      obtain ⟨hinner, hrows, hcols⟩ := Mat.shape_of_multiply hb
      rw [hrows, hcols]
      exact h hinner
  | square =>
      obtain ⟨-, hrows, hcols⟩ := Mat.shape_of_multiply hb
      rwa [hrows, hcols]
  | inverse =>
      obtain ⟨hsquare, hrows, hcols⟩ := Mat.shape_of_inverse hb
      rw [hrows, hcols]
      exact hsquare ▸ ha

theorem storable_after (ha : Storable a.rows a.cols) (h : e.Fits a) :
    Storable (after a e).rows (after a e).cols := by
  rw [after]
  cases hb : apply a e with
  | ok b => exact storable_of_apply ha h hb
  | error cause => exact ha

theorem storable_run (ha : Storable a.rows a.cols) {steps : List (MatEdit R)}
    (h : AllFit a steps) : Storable (run a steps).rows (run a steps).cols := by
  induction steps generalizing a with
  | nil => exact ha
  | cons e steps ih => exact ih (storable_after ha h.1) h.2

end MatEdit

namespace RowMajor

variable {a : Mat R} {e : MatEdit R}

/-- A step on stored cells is the step on the matrix. -/
theorem edit_eq (ha : Storable a.rows a.cols) (h : e.Fits a) :
    a.store.edit e = stored (MatEdit.apply a e) := by
  cases e with
  | set i j value => exact set_eq a i j value
  | resize rows cols => exact resized_eq a h
  | transpose => exact transpose_eq a
  | minor row col => exact minor_eq a row col
  | add right => exact cellwise_eq .add _ a right
  | subtract right => exact cellwise_eq .subtract _ a right
  | multiply right => exact multiply_eq a right h
  | square => exact multiply_eq a a fun _ => ha
  | inverse => exact inverse_eq a ha

theorem after_eq (ha : Storable a.rows a.cols) (h : e.Fits a) :
    a.store.after e = .ok (MatEdit.after a e).store := by
  rw [after, edit_eq ha h, MatEdit.after]
  cases MatEdit.apply a e <;> rfl

theorem run_eq (ha : Storable a.rows a.cols) {steps : List (MatEdit R)}
    (h : MatEdit.AllFit a steps) :
    a.store.run steps = .ok (MatEdit.run a steps).store := by
  induction steps generalizing a with
  | nil => rfl
  | cons e steps ih =>
      have hstep : a.store.run (e :: steps) =
          a.store.after e >>= fun s => s.run steps := rfl
      rw [hstep, after_eq ha h.1, ok_bind, ih (MatEdit.storable_after ha h.1) h.2]
      rfl

/-- A step without room for its result ends the calculation or leaves a list that
is too short. -/
theorem length_ne_of_edit (h : ¬e.Fits a) {s t : RowMajor R}
    (hrows : s.rows = a.rows) (ht : s.edit e = .ok t) :
    t.data.length ≠ t.rows * t.cols := by
  cases e with
  | resize rows cols => exact length_ne_of_resized h ht
  | multiply right =>
      have hroom := (storable_of_multiply ht).2
      rw [hrows] at hroom
      exact absurd (fun _ => hroom) h
  | set | transpose | minor | add | subtract | square | inverse =>
      exact absurd trivial h

end RowMajor

namespace MatEdit

/-- What a step asks of the matrix is not given. -/
def Violates (a : Mat R) : MatEdit R → Prop
  | set i j _ => ¬(i < a.rows ∧ j < a.cols)
  | resize rows cols => rows = 0 ∨ cols = 0
  | transpose => False
  | minor row col => a.rows < 2 ∨ a.cols < 2 ∨ ¬(row < a.rows ∧ col < a.cols)
  | add right => ¬(a.rows = right.rows ∧ a.cols = right.cols)
  | subtract right => ¬(a.rows = right.rows ∧ a.cols = right.cols)
  | multiply right => a.cols ≠ right.rows
  | square => a.cols ≠ a.rows
  | inverse => a.rows ≠ a.cols ∨ ∃ det, a.determinant = .ok det ∧
      Scalar.less (Scalar.abs det) Mat.singularTolerance = true

omit [Scalar R] in
theorem build_eq_error_iff (operation : MatOperation) {rows cols : ℕ}
    (f : Fin rows → Fin cols → R) :
    (∃ cause, Mat.build operation rows cols f = .error cause) ↔
      rows = 0 ∨ cols = 0 := by
  rw [Mat.build]
  split
  · next hshape => simp [hshape.1.ne', hshape.2.ne']
  · next hshape =>
    refine ⟨fun _ => by omega, fun _ => ⟨_, rfl⟩⟩

omit [Scalar R] in
theorem cellwise_eq_error_iff (operation : MatOperation) (f : R → R → R)
    (a b : Mat R) :
    (∃ cause, Mat.cellwise operation f a b = .error cause) ↔
      ¬(a.rows = b.rows ∧ a.cols = b.cols) := by
  rw [Mat.cellwise]
  split
  · next hshape => simp [hshape]
  · next hshape => exact ⟨fun _ => hshape, fun _ => ⟨_, rfl⟩⟩

theorem multiply_eq_error_iff (a b : Mat R) :
    (∃ cause, a.multiply b = .error cause) ↔ a.cols ≠ b.rows := by
  rw [Mat.multiply]
  split
  · next hinner => simp [hinner]
  · next hinner => exact ⟨fun _ => hinner, fun _ => ⟨_, rfl⟩⟩

omit [Scalar R] in
theorem minor_eq_error_iff (a : Mat R) (row col : ℕ) :
    (∃ cause, a.minor row col = .error cause) ↔
      a.rows < 2 ∨ a.cols < 2 ∨ ¬(row < a.rows ∧ col < a.cols) := by
  constructor
  · rintro ⟨cause, hcause⟩
    by_contra hfit
    obtain ⟨m, n, c, hm, hn⟩ := a
    dsimp only at hfit
    obtain ⟨m, rfl⟩ := Nat.exists_eq_add_of_le' (by omega : 2 ≤ m)
    obtain ⟨n, rfl⟩ := Nat.exists_eq_add_of_le' (by omega : 2 ≤ n)
    have hinside : row < m + 2 ∧ col < n + 2 := by omega
    rw [Mat.minor, dif_pos hinside] at hcause
    cases hcause
  · intro hfit
    exact ⟨_, RowMajor.minor_refused (by omega)⟩

theorem inverse_eq_error_iff (a : Mat R) :
    (∃ cause, a.inverse = .error cause) ↔
      a.rows ≠ a.cols ∨ ∃ det, a.determinant = .ok det ∧
        Scalar.less (Scalar.abs det) Mat.singularTolerance = true := by
  rw [Mat.inverse, Mat.determinant]
  split
  · next hsquare =>
    dsimp only
    split
    · next hsmall =>
      exact ⟨fun _ => .inr ⟨_, rfl, hsmall⟩, fun _ => ⟨_, rfl⟩⟩
    · next hlarge => simp [hsquare, hlarge]
  · next hsquare => exact ⟨fun _ => .inl hsquare, fun _ => ⟨_, rfl⟩⟩

/-- A step fails exactly where its condition is violated. -/
theorem apply_eq_error_iff (a : Mat R) (e : MatEdit R) :
    (∃ cause, apply a e = .error cause) ↔ e.Violates a := by
  cases e with
  | set i j value =>
      rw [apply, Violates, Mat.set]
      split
      · next hinside => simp [hinside]
      · next hinside => exact ⟨fun _ => hinside, fun _ => ⟨_, rfl⟩⟩
  | resize rows cols => exact build_eq_error_iff .zeros _
  | transpose => simp [apply, Violates]
  | minor row col => exact minor_eq_error_iff a row col
  | add right => exact cellwise_eq_error_iff .add _ a right
  | subtract right => exact cellwise_eq_error_iff .subtract _ a right
  | multiply right => exact multiply_eq_error_iff a right
  | square => exact multiply_eq_error_iff a a
  | inverse => exact inverse_eq_error_iff a

theorem run_concat_of_error {a : Mat R} {steps : List (MatEdit R)}
    {e : MatEdit R} {cause : MatError R}
    (h : apply (run a steps) e = .error cause) :
    run a (steps ++ [e]) = run a steps := by
  have hlast : run a (steps ++ [e]) = after (run a steps) e := by
    rw [run, List.foldl_append]
    rfl
  rw [hlast, after, h]

end MatEdit

theorem RowMajor.run_concat (s : RowMajor R) (steps : List (MatEdit R))
    (e : MatEdit R) : s.run (steps ++ [e]) = s.run steps >>= (after · e) := by
  rw [run, List.foldlM_append]
  refine congrArg (s.run steps >>= ·) (funext fun t => ?_)
  exact bind_ok (t.after e)

/-- However a matrix is made and edited, the list of its cells is as long as its
shape says and no access to a cell is out of range, as long as there is room for
what the steps make. A step fails exactly where its condition is violated, and
leaves the matrix as it was. A step without room for its result never leaves a list
that is as long as its shape says. -/
theorem Mat.sessions_keep_shape (source : MatSource R) (hroom : source.Fits) :
    source.store = stored source.build ∧ source.store ≠ .error .outOfRange ∧
    source.store ≠ .error .tooLarge ∧
    ∀ a, source.build = .ok a → ∀ steps : List (MatEdit R),
      MatEdit.AllFit a steps →
      ∃ s, a.store.run steps = .ok s ∧ s = (MatEdit.run a steps).store ∧
        0 < s.rows ∧ 0 < s.cols ∧ s.data.length = s.rows * s.cols ∧
        ∀ e : MatEdit R,
          (e.Fits (MatEdit.run a steps) →
            s.edit e = stored (MatEdit.apply (MatEdit.run a steps) e) ∧
            s.edit e ≠ .error .outOfRange ∧ s.edit e ≠ .error .tooLarge ∧
            ((∃ cause, s.edit e = .error (.refused cause)) ↔
              e.Violates (MatEdit.run a steps)) ∧
            ∀ cause, s.edit e = .error (.refused cause) →
              a.store.run (steps ++ [e]) = .ok s ∧
              MatEdit.run a (steps ++ [e]) = MatEdit.run a steps) ∧
          (¬e.Fits (MatEdit.run a steps) →
            ∀ t, s.edit e = .ok t → t.data.length ≠ t.rows * t.cols) := by
  have hsource := source.store_eq hroom
  refine ⟨hsource, hsource ▸ stored_ne_outOfRange _,
    hsource ▸ stored_ne_tooLarge _, ?_⟩
  intro a ha steps hsteps
  have hstart := source.storable_of_build hroom ha
  have hrun := RowMajor.run_eq hstart hsteps
  have hend := MatEdit.storable_run hstart hsteps
  set b := MatEdit.run a steps with hb
  refine ⟨b.store, hrun, rfl, b.rows_pos, b.cols_pos, b.cells.length_toList,
    fun e => ⟨fun hfits => ?_, fun hfits t => RowMajor.length_ne_of_edit hfits rfl⟩⟩
  have hedit := RowMajor.edit_eq hend hfits
  rw [hedit]
  refine ⟨rfl, stored_ne_outOfRange _, stored_ne_tooLarge _, ?_, ?_⟩
  · simp only [stored_eq_refused_iff]
    exact MatEdit.apply_eq_error_iff b e
  · intro cause hrefused
    refine ⟨?_, MatEdit.run_concat_of_error (stored_eq_refused_iff.1 hrefused)⟩
    rw [RowMajor.run_concat, hrun, ok_bind, RowMajor.after, hedit, hrefused]

/-- A session in which two steps are refused: an index outside, and the inverse
of a matrix that is not square. -/
theorem Mat.session_with_refused_steps :
    ∃ s : RowMajor ℚ,
      RowMajor.run ⟨2, 2, [1, 2, 3, 4]⟩ [.set 2 0 7, .transpose, .resize 3 2] =
        .ok s ∧
      s.rows = 3 ∧ s.cols = 2 ∧ s.data = [1, 3, 2, 4, 0, 0] ∧
      (∃ cause, s.edit .inverse = .error (.refused cause)) ∧
      RowMajor.run ⟨2, 2, [1, 2, 3, 4]⟩
        ([.set 2 0 7, .transpose, .resize 3 2] ++ [.inverse]) = .ok s := by
  have hroom : RowMajor.Storable 2 2 := by decide
  obtain ⟨-, -, -, hsessions⟩ :=
    Mat.sessions_keep_shape (.ofRows [[1, 2], [3, 4]] : MatSource ℚ) hroom
  let a : Mat ℚ :=
    ⟨2, 2, Cells.ofFn fun i j => 2 * i.val + j.val + 1, by decide, by decide⟩
  have hdata : a.cells.toList = [1, 2, 3, 4] := by decide +kernel
  have hstore : a.store = ⟨2, 2, [1, 2, 3, 4]⟩ :=
    congrArg (RowMajor.mk 2 2) hdata
  have hbuild : Mat.ofRows [[1, 2], [3, 4]] = .ok a := by
    have hcells : (Cells.ofFn fun i j =>
        ([[1, 2], [3, 4]][i] : List ℚ).getD j 0) = a.cells :=
      Cells.ext (by decide +kernel)
    exact congrArg (fun c =>
      Except.ok (Mat.mk 2 2 c (by decide) (by decide))) hcells
  have hresize : RowMajor.Storable 3 2 := by decide
  have hfits : MatEdit.AllFit a [.set 2 0 7, .transpose, .resize 3 2] :=
    ⟨trivial, trivial, hresize, trivial⟩
  obtain ⟨s, hrun, hs, -, -, -, hsteps⟩ := hsessions a hbuild _ hfits
  obtain ⟨-, -, -, hrefused, hsame⟩ := (hsteps .inverse).1 trivial
  have hinverse : ∃ cause, s.edit .inverse = .error (.refused cause) :=
    hrefused.2 (.inl (by decide))
  obtain ⟨cause, hcause⟩ := hinverse
  rw [hstore] at hrun hsame
  refine ⟨s, hrun, ?_, ?_, ?_, ⟨cause, hcause⟩, (hsame cause hcause).1⟩
  · rw [hs]
    rfl
  · rw [hs]
    rfl
  · rw [hs]
    decide +kernel

/-- Shapes whose cells are counted as none. What is made of them has no cell to set,
and a resize finds no place for the cell that it keeps. -/
theorem Mat.shapes_without_cells :
    let source : MatSource ℚ := .ofRowMajor 4 (2 ^ 62) []
    let s : RowMajor ℚ := ⟨4, 2 ^ 62, []⟩
    let e : MatEdit ℚ := .resize 4 (2 ^ 62)
    source.store = .ok s ∧ s.data.length ≠ s.rows * s.cols ∧
      s.edit (.set 0 0 1) = .error .outOfRange ∧
      RowMajor.edit ⟨1, 1, [1]⟩ e = .error .outOfRange := by
  intro source s e
  exact ⟨rfl, by decide, rfl, rfl⟩

end SciCalc
