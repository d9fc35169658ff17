import Mathlib
import SciCalc.Plot.Series

/-!
# Segments of a curve

A curve is drawn as one line for every segment. The segments are the maximal
runs of points without a gap: together they are the points in order, none is
empty, and two points are on one segment exactly when no gap stands between
them. These three facts leave no choice, so nothing else could be drawn.
-/

namespace SciCalc

/-! ## Cutting a list into runs -/

/-- The number of the run that has entry `k`, when the runs are written one
behind the other. -/
def runAt {α : Type} : List (List α) → ℕ → ℕ
  | [], _ => 0
  | run :: rest, k =>
      if k < run.length then 0 else runAt rest (k - run.length) + 1

section Runs

variable {α : Type}

theorem runAt_of_lt {run : List α} {k : ℕ} (rest : List (List α))
    (hk : k < run.length) : runAt (run :: rest) k = 0 :=
  if_pos hk

theorem runAt_length_add (run : List α) (rest : List (List α)) (k : ℕ) :
    runAt (run :: rest) (run.length + k) = runAt rest k + 1 := by
  rw [runAt, if_neg (by omega), Nat.add_sub_cancel_left]

theorem runAt_lt_length {runs : List (List α)} {k : ℕ}
    (hk : k < runs.flatten.length) : runAt runs k < runs.length := by
  induction runs generalizing k with
  | nil => exact absurd hk (Nat.not_lt_zero k)
  | cons run rest ih =>
      rw [List.flatten_cons, List.length_append] at hk
      rw [runAt, List.length_cons]
      split
      · exact Nat.succ_pos _
      · exact Nat.succ_lt_succ (ih (by omega))

theorem runAt_append_of_lt {runs : List (List α)} (rest : List (List α))
    {k : ℕ} (hk : k < runs.flatten.length) :
    runAt (runs ++ rest) k = runAt runs k := by
  induction runs generalizing k with
  | nil => exact absurd hk (Nat.not_lt_zero k)
  | cons run runs ih =>
      rw [List.flatten_cons, List.length_append] at hk
      rw [List.cons_append, runAt, runAt]
      split
      · rfl
      · rw [ih (by omega)]

theorem runAt_append_add (runs rest : List (List α)) (k : ℕ) :
    runAt (runs ++ rest) (runs.flatten.length + k) =
      runs.length + runAt rest k := by
  induction runs with
  | nil => simp
  | cons run runs ih =>
      rw [List.cons_append, List.flatten_cons, List.length_append,
        Nat.add_assoc, runAt_length_add, ih, List.length_cons]
      omega

/-- The first run is not shorter than another first run would be: the entry
behind it is on a run with the one in front. -/
theorem length_head_le {run run' : List α} {rest rest' : List (List α)}
    (hflatten : (run :: rest).flatten = (run' :: rest').flatten)
    (hne : run ≠ [])
    (hsame : ∀ k l, k < l → l < (run :: rest).flatten.length →
      (runAt (run :: rest) k = runAt (run :: rest) l ↔
        runAt (run' :: rest') k = runAt (run' :: rest') l)) :
    run'.length ≤ run.length := by
  by_contra hshort
  have hpos := List.length_pos_iff.2 hne
  have hlength := congrArg List.length hflatten
  rw [List.flatten_cons (l := run'), List.length_append] at hlength
  have hlast := hsame (run.length - 1) run.length (by omega) (by omega)
  rw [runAt_of_lt rest (by omega), runAt_of_lt rest' (by omega),
    runAt_of_lt rest' (by omega)] at hlast
  have hbehind := runAt_length_add run rest 0
  rw [Nat.add_zero] at hbehind
  rw [hbehind] at hlast
  exact absurd (hlast.2 rfl) (Nat.succ_ne_zero _).symm

/-- Runs without an empty one are settled by their entries and by which of
these share a run. -/
theorem eq_of_runAt {runs runs' : List (List α)}
    (hflatten : runs.flatten = runs'.flatten)
    (hne : ∀ run ∈ runs, run ≠ []) (hne' : ∀ run ∈ runs', run ≠ [])
    (hsame : ∀ k l, k < l → l < runs.flatten.length →
      (runAt runs k = runAt runs l ↔ runAt runs' k = runAt runs' l)) :
    runs = runs' := by
  induction runs generalizing runs' with
  | nil =>
      cases runs' with
      | nil => rfl
      | cons run' rest' =>
          have hempty := List.append_eq_nil_iff.1 hflatten.symm
          exact absurd hempty.1 (hne' run' List.mem_cons_self)
  | cons run rest ih =>
      cases runs' with
      | nil =>
          have hempty := List.append_eq_nil_iff.1 hflatten
          exact absurd hempty.1 (hne run List.mem_cons_self)
      | cons run' rest' =>
          rw [List.forall_mem_cons] at hne hne'
          have hlength : run.length = run'.length := by
            apply le_antisymm
            · apply length_head_le hflatten.symm hne'.1
              intro k l hkl hl
              exact (hsame k l hkl (hflatten ▸ hl)).symm
            · exact length_head_le hflatten hne.1 hsame
          obtain ⟨rfl, hrest⟩ := List.append_inj hflatten hlength
          congr 1
          apply ih hrest hne.2 hne'.2
          intro k l hkl hl
          have hshifted := hsame (run.length + k) (run.length + l) (by omega)
            (by rw [List.flatten_cons, List.length_append]; omega)
          simpa only [runAt_length_add, Nat.add_right_cancel_iff] using hshifted

end Runs

/-! ## Points and gaps by their places -/

namespace Sample

variable {R : Type}

def PointAt (samples : List (Sample R)) (i : ℕ) : Prop :=
  ∃ x y, samples[i]? = some (.point x y)

def GapAt (samples : List (Sample R)) (i : ℕ) : Prop :=
  ∃ x, samples[i]? = some (.gap x)

/-- No gap stands between two samples. -/
def GapFree (samples : List (Sample R)) (i j : ℕ) : Prop :=
  ∀ l, i < l → l < j → ¬GapAt samples l

/-- How many points stand in front of a sample. -/
def pointsBefore (samples : List (Sample R)) (i : ℕ) : ℕ :=
  ((samples.take i).filterMap point?).length

variable {front back samples : List (Sample R)} {i j : ℕ}

theorem PointAt.lt_length (h : PointAt samples i) : i < samples.length := by
  obtain ⟨x, y, h⟩ := h
  exact (List.getElem?_eq_some_iff.1 h).1

theorem pointAt_append_of_lt (hi : i < front.length) :
    PointAt (front ++ back) i ↔ PointAt front i := by
  simp only [PointAt, List.getElem?_append_left hi]

theorem pointAt_append_add :
    PointAt (front ++ back) (front.length + i) ↔ PointAt back i := by
  simp only [PointAt, List.getElem?_append_right (Nat.le_add_right _ _),
    Nat.add_sub_cancel_left]

theorem gapAt_append_add :
    GapAt (front ++ back) (front.length + i) ↔ GapAt back i := by
  simp only [GapAt, List.getElem?_append_right (Nat.le_add_right _ _),
    Nat.add_sub_cancel_left]

theorem gapFree_append_of_lt (hj : j < front.length) :
    GapFree (front ++ back) i j ↔ GapFree front i j := by
  refine forall_congr' fun l => forall_congr' fun _ =>
    forall_congr' fun hl => not_congr ?_
  simp only [GapAt, List.getElem?_append_left (hl.trans hj)]

theorem gapFree_append_add :
    GapFree (front ++ back) (front.length + i) (front.length + j) ↔
      GapFree back i j := by
  constructor
  · intro hfree l hil hlj hl
    exact hfree (front.length + l) (by omega) (by omega)
      (gapAt_append_add.2 hl)
  · intro hfree l hil hlj hl
    obtain ⟨l, rfl⟩ := Nat.exists_eq_add_of_le (by omega : front.length ≤ l)
    exact hfree l (by omega) (by omega) (gapAt_append_add.1 hl)

theorem gapFree_cons_succ {sample : Sample R} :
    GapFree (sample :: back) (i + 1) (j + 1) ↔ GapFree back i j := by
  rw [Nat.add_comm i, Nat.add_comm j]
  exact @gapFree_append_add R [sample] back i j

theorem pointsBefore_append_of_le (hi : i ≤ front.length) :
    pointsBefore (front ++ back) i = pointsBefore front i := by
  rw [pointsBefore, List.take_append_of_le_length hi, pointsBefore]

theorem pointsBefore_append_add :
    pointsBefore (front ++ back) (front.length + i) =
      (front.filterMap point?).length + pointsBefore back i := by
  rw [pointsBefore, List.take_length_add_append, List.filterMap_append,
    List.length_append, pointsBefore]

theorem pointsBefore_mono (hij : i ≤ j) :
    pointsBefore samples i ≤ pointsBefore samples j :=
  ((List.take_sublist_take_left hij).filterMap point?).length_le

theorem pointsBefore_succ (h : PointAt samples i) :
    pointsBefore samples (i + 1) = pointsBefore samples i + 1 := by
  obtain ⟨x, y, h⟩ := h
  simp [pointsBefore, List.take_add_one, h, point?]

theorem pointsBefore_lt (h : PointAt samples i) :
    pointsBefore samples i < (samples.filterMap point?).length := by
  calc
    pointsBefore samples i < pointsBefore samples (i + 1) := by
      rw [pointsBefore_succ h]
      exact Nat.lt_succ_self _
    _ ≤ pointsBefore samples samples.length := pointsBefore_mono h.lt_length
    _ = (samples.filterMap point?).length := by
      rw [pointsBefore, List.take_length]

theorem exists_pointAt {k : ℕ} (hk : k < (samples.filterMap point?).length) :
    ∃ i, PointAt samples i ∧ pointsBefore samples i = k := by
  induction samples generalizing k with
  | nil => exact absurd hk (Nat.not_lt_zero k)
  | cons sample rest ih =>
      have hbehind : ∀ i, PointAt rest i → PointAt (sample :: rest) (i + 1) :=
        fun i h => h
      cases sample with
      | gap x =>
          obtain ⟨i, hi, hk⟩ := ih hk
          exact ⟨i + 1, hbehind i hi, hk⟩
      | point x y =>
          cases k with
          | zero => exact ⟨0, ⟨x, y, rfl⟩, rfl⟩
          | succ k =>
              obtain ⟨i, hi, hk⟩ := ih (Nat.lt_of_succ_lt_succ hk)
              exact ⟨i + 1, hbehind i hi, congrArg (· + 1) hk⟩

/-- The samples of a stretch without a gap. -/
def ofPoints (points : List (R × R)) : List (Sample R) :=
  points.map fun p => .point p.1 p.2

theorem filterMap_ofPoints (points : List (R × R)) :
    (ofPoints points).filterMap point? = points := by
  rw [ofPoints, List.filterMap_map]
  exact List.filterMap_some

theorem not_gapAt_ofPoints (points : List (R × R)) (i : ℕ) :
    ¬GapAt (ofPoints points) i := by
  rintro ⟨x, h⟩
  obtain ⟨p, -, hp⟩ := List.mem_map.1 (List.mem_of_getElem? h)
  cases hp

/-- A point among samples that are split at a gap is in front of the gap or
behind it. -/
theorem PointAt.of_append_gap {x : R}
    (h : PointAt (front ++ .gap x :: back) i) :
    PointAt front i ∨ ∃ k, i = front.length + (k + 1) ∧ PointAt back k := by
  rcases lt_or_ge i front.length with hi | hi
  · exact .inl ((pointAt_append_of_lt hi).1 h)
  · obtain ⟨k, rfl⟩ := Nat.exists_eq_add_of_le hi
    rw [pointAt_append_add] at h
    cases k with
    | zero =>
        obtain ⟨x', y', h⟩ := h
        cases h
    | succ k => exact .inr ⟨k, rfl, h⟩

theorem length_eq_gaps_add_points (samples : List (Sample R)) :
    samples.length =
      samples.countP isGap + (samples.filterMap point?).length := by
  rw [List.length_filterMap_eq_countP,
    List.length_eq_countP_add_countP isGap]
  congr 1
  apply List.countP_congr
  rintro (⟨x, y⟩ | x) _ <;> simp [isGap, point?]

end Sample

/-! ## The maximal runs -/

namespace Series

open Sample

variable {R : Type}

/-- The runs hold the points in order, none of them is empty, and two points
are on one run if and only if no gap stands between them. -/
structure MaximalRuns (samples : List (Sample R))
    (runs : List (List (R × R))) : Prop where
  flatten_eq : runs.flatten = samples.filterMap point?
  ne_nil : ∀ run ∈ runs, run ≠ []
  runAt_eq_iff : ∀ i j, i < j → PointAt samples i → PointAt samples j →
    (runAt runs (pointsBefore samples i) =
        runAt runs (pointsBefore samples j) ↔
      GapFree samples i j)

namespace MaximalRuns

variable {samples front back : List (Sample R)}
  {runs runs' : List (List (R × R))} {i : ℕ}

/-- There is only one way to cut the points into maximal runs. -/
theorem unique (h : MaximalRuns samples runs)
    (h' : MaximalRuns samples runs') : runs = runs' := by
  apply eq_of_runAt (h.flatten_eq.trans h'.flatten_eq.symm) h.ne_nil h'.ne_nil
  intro k l hkl hl
  rw [h.flatten_eq] at hl
  obtain ⟨i, hi, rfl⟩ := exists_pointAt (hkl.trans hl)
  obtain ⟨j, hj, rfl⟩ := exists_pointAt hl
  have hij : i < j := by
    by_contra hji
    exact absurd (pointsBefore_mono (not_lt.1 hji)) (not_le.2 hkl)
  rw [h.runAt_eq_iff i j hij hi hj, h'.runAt_eq_iff i j hij hi hj]

/-- Points without a gap are one run, or none when there are no points. -/
theorem closeRun (run : List (R × R)) :
    MaximalRuns (ofPoints run.reverse) (Series.closeRun run) := by
  have hflatten : (Series.closeRun run).flatten = run.reverse := by
    cases run with
    | nil => rfl
    | cons p run => simp [Series.closeRun]
  have hfirst : ∀ k < run.reverse.length,
      runAt (Series.closeRun run) k = 0 := by
    intro k hk
    cases run with
    | nil => exact absurd hk (Nat.not_lt_zero k)
    | cons p run => exact runAt_of_lt [] hk
  constructor
  · rw [hflatten, filterMap_ofPoints]
  · cases run with
    | nil => simp [Series.closeRun]
    | cons p run => simp [Series.closeRun]
  · intro i j _ hi hj
    have hi' := pointsBefore_lt hi
    have hj' := pointsBefore_lt hj
    rw [filterMap_ofPoints] at hi' hj'
    rw [hfirst _ hi', hfirst _ hj']
    exact iff_of_true rfl fun l _ _ => not_gapAt_ofPoints run.reverse l

/-- The runs in front of a gap keep their numbers. -/
theorem runAt_front (h : MaximalRuns front runs) (hi : PointAt front i) :
    runAt (runs ++ runs') (pointsBefore (front ++ back) i) =
      runAt runs (pointsBefore front i) := by
  rw [pointsBefore_append_of_le hi.lt_length.le]
  apply runAt_append_of_lt
  rw [h.flatten_eq]
  exact pointsBefore_lt hi

/-- The runs behind a gap are counted on from those in front. -/
theorem runAt_back (h : MaximalRuns front runs) (x : R) (k : ℕ) :
    runAt (runs ++ runs')
        (pointsBefore (front ++ .gap x :: back) (front.length + (k + 1))) =
      runs.length + runAt runs' (pointsBefore back k) := by
  rw [pointsBefore_append_add, ← h.flatten_eq]
  exact runAt_append_add runs runs' (pointsBefore back k)

theorem runAt_lt_length (h : MaximalRuns samples runs)
    (hi : PointAt samples i) :
    runAt runs (pointsBefore samples i) < runs.length := by
  apply SciCalc.runAt_lt_length
  rw [h.flatten_eq]
  exact pointsBefore_lt hi

/-- A gap ends the runs in front of it, and those behind it start anew. -/
theorem append_gap (h : MaximalRuns front runs) (h' : MaximalRuns back runs')
    (x : R) : MaximalRuns (front ++ .gap x :: back) (runs ++ runs') where
  flatten_eq := by
    rw [List.flatten_append, h.flatten_eq, h'.flatten_eq,
      List.filterMap_append]
    rfl
  ne_nil := List.forall_mem_append.2 ⟨h.ne_nil, h'.ne_nil⟩
  runAt_eq_iff := by
    intro i j hij hi hj
    have hgap : GapAt (front ++ .gap x :: back) front.length := by
      simp [GapAt]
    rcases hi.of_append_gap with hi | ⟨k, rfl, hk⟩
    · rcases hj.of_append_gap with hj | ⟨l, rfl, hl⟩
      · rw [h.runAt_front hi, h.runAt_front hj,
          h.runAt_eq_iff i j hij hi hj, gapFree_append_of_lt hj.lt_length]
      · -- The gap stands between them.
        have hlt := h.runAt_lt_length hi
        rw [h.runAt_front hi, h.runAt_back]
        constructor
        · intro heq
          omega
        · intro hfree
          exact absurd hgap (hfree _ hi.lt_length (by omega))
    · rcases hj.of_append_gap with hj | ⟨l, rfl, hl⟩
      · exact absurd hj.lt_length (by omega)
      · rw [h.runAt_back, h.runAt_back, Nat.add_right_inj,
          h'.runAt_eq_iff k l (by omega) hk hl, gapFree_append_add,
          gapFree_cons_succ]

/-- The points of a run that has been begun stand in front of the samples that
are still to be read. -/
theorem runsFrom (run : List (R × R)) (samples : List (Sample R)) :
    MaximalRuns (ofPoints run.reverse ++ samples)
      (Series.runsFrom run samples) := by
  induction samples generalizing run with
  | nil =>
      rw [List.append_nil]
      exact closeRun run
  | cons sample rest ih =>
      cases sample with
      | gap x => exact (closeRun run).append_gap (ih []) x
      | point x y =>
          have hbegun : ofPoints ((x, y) :: run).reverse ++ rest =
              ofPoints run.reverse ++ .point x y :: rest := by
            simp [ofPoints]
          exact hbegun ▸ ih ((x, y) :: run)

end MaximalRuns

/-- The segments of a curve are the maximal runs of its points, and every
sample is a gap or a point of one of them. -/
theorem segments_are_maximal_runs (s : Series R) :
    (∀ runs, runs = s.segments ↔ MaximalRuns s.samples runs) ∧
      s.length = s.gapCount + s.points.length := by
  have hsegments : MaximalRuns s.samples s.segments :=
    MaximalRuns.runsFrom [] s.samples
  refine ⟨fun runs => ⟨?_, fun hruns => hruns.unique hsegments⟩, ?_⟩
  · rintro rfl
    exact hsegments
  · exact length_eq_gaps_add_points s.samples

/-- Gaps at both ends and one after the other leave no empty segment. -/
example : segments (ofSamples "1/x" 0 [.gap 0, .point 1 5, .point 2 5, .gap 3,
    .gap 4, .point 5 5, .gap 6]) = [[(1, 5), (2, 5)], [(5, 5)]] := by
  decide

end Series

end SciCalc
