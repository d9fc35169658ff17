import Mathlib
import SciCalc.Proofs.Mat.ForwardElimination

/-!
# Systems with the same coefficients

The constants are carried through every exchange of rows and every update, and
nothing is decided by them. Two eliminations of the same coefficients therefore
have equal coefficients after every column, whatever their constants are: they
choose the same pivots, exchange the same rows and stop at the same place. No
law of arithmetic is used, so this holds of doubles as well.
-/

namespace SciCalc

namespace Elimination

variable {R : Type} {n : ℕ}

/-- Two eliminations that differ in the constants at most. -/
structure SameCoefficients (s t : Elimination R n) : Prop where
  entry : ∀ i j : Fin n,
    s.rows.entry i j.castSucc = t.rows.entry i j.castSucc
  swaps : s.swaps = t.swaps

/-- Two outcomes that go together: both eliminations are finished, or both are
stopped at the same column, and they differ in the constants at most. -/
inductive Together : Except (Stop R n) (Elimination R n) →
    Except (Stop R n) (Elimination R n) → Prop
  | finished {s t : Elimination R n} (h : SameCoefficients s t) :
      Together (.ok s) (.ok t)
  | stopped {s t : Elimination R n} (h : SameCoefficients s t) (i : Fin n) :
      Together (.error ⟨s, i⟩) (.error ⟨t, i⟩)

/-- The exchanges of rows that were made, in order. -/
def exchanges : Except (Stop R n) (Elimination R n) → List (Fin n × Fin n)
  | .ok s => s.swaps
  | .error stop => stop.state.swaps

theorem Together.exchanges_eq
    {outcome outcome' : Except (Stop R n) (Elimination R n)}
    (h : Together outcome outcome') :
    exchanges outcome = exchanges outcome' := by
  cases h with
  | finished h => exact h.swaps
  | stopped h i => exact h.swaps

theorem sameCoefficients_start (coefficients : Cells R n n)
    (constants constants' : Fin n → R) :
    SameCoefficients (start coefficients constants)
      (start coefficients constants') where
  entry := by
    intro i j
    simp [start, augment]
  swaps := rfl

namespace SameCoefficients

variable {s t : Elimination R n}

/-- Where both are stopped, the pivot is a coefficient. -/
theorem pivot (h : SameCoefficients s t) (i : Fin n) :
    Stop.pivot ⟨s, i⟩ = Stop.pivot ⟨t, i⟩ :=
  h.entry i i

variable [Scalar R]

/-- The search for the pivot sees coefficients only. -/
theorem raisePivot (h : SameCoefficients s t) (i : Fin n) :
    SameCoefficients (s.raisePivot i) (t.raisePivot i) := by
  have hcolumn : (fun k => s.rows.entry k i.castSucc) =
      fun k => t.rows.entry k i.castSucc := funext fun k => h.entry k i
  unfold Elimination.raisePivot
  rw [hcolumn, h.swaps]
  refine ⟨fun k j => ?_, rfl⟩
  rw [Cells.entry_swapRows_eq, Cells.entry_swapRows_eq, h.entry]

/-- Coefficients tell which rows are updated and by which multiples, also
where the multiple is zero and the row is skipped. -/
theorem clearBelow (h : SameCoefficients s t) (i : Fin n) :
    SameCoefficients { s with rows := Elimination.clearBelow s.rows i }
      { t with rows := Elimination.clearBelow t.rows i } where
  entry := by
    intro k j
    have hmultiplier : multiplier s.rows i k = multiplier t.rows i k := by
      rw [multiplier, multiplier, h.entry, h.entry]
    rw [entry_clearBelow, entry_clearBelow, hmultiplier, h.entry, h.entry]
  swaps := h.swaps

/-- One column is finished in both eliminations or in neither. -/
theorem column (h : SameCoefficients s t) (i : Fin n) :
    Together (s.column i) (t.column i) := by
  have hraised := h.raisePivot i
  unfold Elimination.column
  dsimp only
  rw [hraised.entry i i]
  split
  · exact .stopped hraised i
  · exact .finished (hraised.clearBelow i)

/-- So are all of them, by induction on the columns. -/
theorem columns (h : SameCoefficients s t) (is : List (Fin n)) :
    Together (s.columns is) (t.columns is) := by
  induction is generalizing s t with
  | nil => exact .finished h
  | cons i is ih =>
      have hcolumn := h.column i
      rw [Elimination.columns, Elimination.columns]
      generalize s.column i = outcome, t.column i = outcome' at hcolumn ⊢
      cases hcolumn with
      | finished h' => exact ih h'
      | stopped h' i => exact .stopped h' i

end SameCoefficients

theorem together_run [Scalar R] (coefficients : Cells R n n)
    (constants constants' : Fin n → R) :
    Together (run coefficients constants) (run coefficients constants') :=
  (sameCoefficients_start coefficients constants constants').columns _

end Elimination

namespace Mat

open Elimination

variable {R : Type} [Scalar R]

/-- Whether a system is solved or refused as singular does not depend on its
constants. With other constants elimination exchanges the same rows, and if it
is stopped then by the same pivot. -/
theorem solvability_of_same_coefficients (a : Mat R) (b b' : List R)
    (hsquare : a.rows = a.cols) (hb : b.length = a.rows)
    (hb' : b'.length = a.rows) :
    (∀ p, a.solve b = .error (.singular p) ↔
      a.solve b' = .error (.singular p)) ∧
    ((∃ x, a.solve b = .ok x) ↔ ∃ x, a.solve b' = .ok x) ∧
    exchanges (run (a.squareCells hsquare) fun i => b[i.cast hb.symm]) =
      exchanges (run (a.squareCells hsquare) fun i => b'[i.cast hb'.symm]) := by
  have htogether := together_run (a.squareCells hsquare)
    (fun i => b[i.cast hb.symm]) fun i => b'[i.cast hb'.symm]
  rw [solve, dif_pos hsquare, dif_pos hb, solve, dif_pos hsquare, dif_pos hb']
  generalize (run (a.squareCells hsquare) fun i => b[i.cast hb.symm]) = outcome,
    (run (a.squareCells hsquare) fun i => b'[i.cast hb'.symm]) = outcome'
    at htogether ⊢
  refine ⟨fun p => ?_, ?_, htogether.exchanges_eq⟩
  · cases htogether with
    | finished h => simp
    | stopped h i =>
        dsimp only
        rw [h.pivot i]
  · cases htogether with
    | finished h => simp
    | stopped h i => simp

/-- Constants that are infinite or not a number change neither the exchange of
the two rows nor the pivot zero that is left. -/
theorem singular_with_constants_not_finite :
    let a : Mat Float :=
      ⟨2, 2, Cells.ofFn ![![1, 2], ![2, 4]], two_pos, two_pos⟩
    let exchanged := fun constants : Fin 2 → Float =>
      exchanges (run (a.squareCells rfl) constants)
    (a.solve [1, 1] = .error (.singular 0) ∧
      exchanged (fun i => [1, 1][i]) = [(0, 1)]) ∧
    a.solve [0 / 0, 1 / 0] = .error (.singular 0) ∧
      exchanged (fun i => [0 / 0, 1 / 0][i]) = [(0, 1)] := by
  intro a exchanged
  have hsolve : a.solve [1, 1] = .error (.singular 0) := by decide +kernel
  have hswaps : exchanged (fun i => [1, 1][i]) = [(0, 1)] := by decide +kernel
  obtain ⟨hsingular, -, hexchanges⟩ :=
    solvability_of_same_coefficients a [1, 1] [0 / 0, 1 / 0] rfl rfl rfl
  exact ⟨⟨hsolve, hswaps⟩, (hsingular 0).1 hsolve, hexchanges.symm.trans hswaps⟩

end Mat

end SciCalc
