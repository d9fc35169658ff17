import SciCalc.Plot.Viewport
import SciCalc.Proofs.Decimal.LeadingExponent
import SciCalc.Proofs.Mat.Exact
import SciCalc.Proofs.Outcome

/-!
# Grid lines

Over the rational numbers the step of a grid is nice, and never far from the
tenth of the span that it rounds: the span has at least six of these steps and
less than fifteen. The multiples of the step from one end of the span to the
other are then between six and fifteen lines, which a canvas shows in order
between its edges.
-/

namespace SciCalc

open Outcome

/-! ## Decades -/

theorem ratPowerOfTen_eq_zpow (e : ℤ) : ratPowerOfTen e = 10 ^ e := by
  have hcast : ∀ k : ℕ, ((Nat.pow 10 k : ℕ) : ℚ) = 10 ^ k := fun k => by
    rw [Nat.pow_eq, Nat.cast_pow, Nat.cast_ofNat]
  rw [ratPowerOfTen, hcast, hcast, ← Decimal.zpow_eq_toNat_div (by norm_num)]

section Steps

variable {step : ℚ} (hstep : 0 < step)

include hstep

theorem decade_eq_zpow : GridScalar.decade step = (10 : ℚ) ^ Int.log 10 step := by
  have hnum : 0 < step.num.natAbs := by
    rw [Int.natAbs_pos]
    exact (Rat.num_pos.2 hstep).ne'
  have hfraction : ((step.num.natAbs : ℚ) / step.den) = step := by
    rw [Nat.cast_natAbs, abs_of_pos (Rat.num_pos.2 hstep), Rat.num_div_den]
  change ratPowerOfTen (Decimal.leadingExponent step.num.natAbs step.den) = _
  rw [ratPowerOfTen_eq_zpow, Decimal.leadingExponent_eq_log hnum step.den_pos,
    hfraction]

/-- The decade is the largest power of ten not above the step. -/
theorem isGreatest_decade :
    IsGreatest {p : ℚ | (∃ e : ℤ, p = 10 ^ e) ∧ p ≤ step}
      (GridScalar.decade step) := by
  rw [decade_eq_zpow hstep]
  refine ⟨⟨⟨_, rfl⟩, Int.zpow_log_le_self (b := 10) (by decide) hstep⟩, ?_⟩
  rintro _ ⟨⟨e, rfl⟩, he⟩
  have hlog : e ≤ Int.log 10 step :=
    (Int.zpow_le_iff_le_log (b := 10) (by decide) hstep).1 (by exact_mod_cast he)
  exact zpow_le_zpow_right₀ (by norm_num) hlog

theorem decade_bounds :
    0 < GridScalar.decade step ∧ GridScalar.decade step ≤ step ∧
      step < 10 * GridScalar.decade step := by
  have hlower := Int.zpow_log_le_self (b := 10) (by decide) hstep
  have hupper := Int.lt_zpow_succ_log_self (b := 10) (by decide) step
  rw [zpow_add_one₀ (by norm_num), mul_comm] at hupper
  rw [decade_eq_zpow hstep]
  exact ⟨by positivity, by exact_mod_cast hlower, by exact_mod_cast hupper⟩

end Steps

/-! ## Nice steps -/

theorem niceStep_eq (step : ℚ) :
    niceStep step =
      (if step / GridScalar.decade step < 3 / 2 then 1
        else if step / GridScalar.decade step < 3 then 2
        else if step / GridScalar.decade step < 7 then 5
        else 10) * GridScalar.decade step := by
  simp only [niceStep, Scalar.less_eq_true_iff, Scalar.ratio_eq_div]
  rfl

/-- A step is at least three fifths of its nice step and less than three halves
of it. -/
theorem niceStep_bounds {step : ℚ} (hstep : 0 < step) :
    0 < niceStep step ∧ 3 / 5 * niceStep step ≤ step ∧
      step < 3 / 2 * niceStep step := by
  obtain ⟨hpos, hlower, hupper⟩ := decade_bounds hstep
  simp only [niceStep_eq, div_lt_iff₀ hpos]
  generalize GridScalar.decade step = decade at hpos hlower hupper ⊢
  -- The extremes are 3, which becomes 5, and what is just below 3 / 2.
  split_ifs <;> refine ⟨?_, ?_, ?_⟩ <;> linarith

/-! ## Ranges of whole numbers -/

section Ranges

variable {first last : ℤ}

theorem mem_intRange {k : ℤ} :
    k ∈ intRange first last ↔ first ≤ k ∧ k ≤ last := by
  simp only [intRange, List.mem_map, List.mem_range]
  constructor
  · rintro ⟨place, hplace, rfl⟩
    omega
  · rintro ⟨hfirst, hlast⟩
    exact ⟨(k - first).toNat, by omega, by omega⟩

theorem pairwise_intRange : (intRange first last).Pairwise (· < ·) := by
  refine List.Pairwise.map _ ?_ List.pairwise_lt_range
  intro i j hij
  omega

theorem length_intRange :
    (intRange first last).length = (last + 1 - first).toNat := by
  rw [intRange, List.length_map, List.length_range]

end Ranges

theorem clamp64_eq_self {k : ℤ} (hlow : -2 ^ 63 ≤ k) (hhigh : k < 2 ^ 63) :
    clamp64 k = k := by
  have hbound : ((Nat.pow 2 63 : ℕ) : ℤ) = 2 ^ 63 := rfl
  rw [clamp64, hbound]
  omega

theorem floor64_eq (q : ℚ) : GridScalar.floor64 q = clamp64 ⌊q⌋ := rfl

theorem ceil64_eq (q : ℚ) : GridScalar.ceil64 q = clamp64 ⌈q⌉ :=
  congrArg clamp64 (Rat.ceil_eq_neg_floor_neg q)

/-! ## Lines of a grid -/

section Lines

variable {low high step : ℚ} (hstep : 0 < step)

include hstep

/-- Away from the ends of the 64-bit range nothing stops the rounding. -/
theorem gridLines_eq (hspan : low + step ≤ high)
    (hlow : -2 ^ 63 ≤ low / step) (hhigh : high / step < 2 ^ 63) :
    gridLines low high step =
      (intRange ⌈low / step⌉ ⌊high / step⌋).map fun k : ℤ => k * step := by
  have hsteps : low / step + 1 ≤ high / step := by
    rw [div_add_one hstep.ne']
    exact div_le_div_of_nonneg_right hspan hstep.le
  have hfirst : clamp64 ⌈low / step⌉ = ⌈low / step⌉ := by
    refine clamp64_eq_self (Int.le_ceil_iff.2 ?_) (Int.lt_of_le_sub_one ?_)
    · push_cast
      linarith
    · -- A whole step follows the lower end, so rounding it up fits as well.
      rw [Int.ceil_le]
      push_cast
      linarith
  have hlast : clamp64 ⌊high / step⌋ = ⌊high / step⌋ := by
    refine clamp64_eq_self (Int.le_floor.2 ?_) (Int.floor_lt.2 ?_)
    · push_cast
      linarith
    · exact_mod_cast hhigh
  have hpositive : Scalar.less 0 step = true := Scalar.less_eq_true_iff.2 hstep
  have hfinite : Scalar.isFinite step = true := rfl
  have hlines : gridLines low high step =
      (intRange (GridScalar.ceil64 (low / step))
        (GridScalar.floor64 (high / step))).map fun k : ℤ => k * step :=
    if_neg (by rw [hpositive, hfinite]; decide)
  rw [hlines, ceil64_eq, floor64_eq, hfirst, hlast]

/-- The whole numbers of steps between two ends are those of the lines. -/
theorem mem_lines_iff {q : ℚ} :
    (q ∈ (intRange ⌈low / step⌉ ⌊high / step⌋).map fun k : ℤ => k * step) ↔
      (∃ k : ℤ, q = k * step) ∧ low ≤ q ∧ q ≤ high := by
  simp only [List.mem_map, mem_intRange, Int.ceil_le, Int.le_floor,
    div_le_iff₀ hstep, le_div_iff₀ hstep]
  constructor
  · rintro ⟨k, hk, rfl⟩
    exact ⟨⟨k, rfl⟩, hk⟩
  · rintro ⟨⟨k, rfl⟩, hk⟩
    exact ⟨k, hk, rfl⟩

theorem pairwise_lines {first last : ℤ} :
    ((intRange first last).map fun k : ℤ => k * step).Pairwise (· < ·) := by
  refine List.Pairwise.map _ ?_ pairwise_intRange
  intro j k hjk
  exact mul_lt_mul_of_pos_right (Int.cast_lt.2 hjk) hstep

/-- Rounding both ends inwards loses less than two steps, and the line at the
first end counts too. -/
theorem length_lines (least most : ℕ) (hleast : least * step ≤ high - low)
    (hmost : high - low < most * step) :
    least ≤ (intRange ⌈low / step⌉ ⌊high / step⌋).length ∧
      (intRange ⌈low / step⌉ ⌊high / step⌋).length ≤ most := by
  rw [← le_div_iff₀ hstep, sub_div] at hleast
  rw [← div_lt_iff₀ hstep, sub_div] at hmost
  have hfirst := Int.ceil_lt_add_one (low / step)
  have hfirst' := Int.le_ceil (low / step)
  have hlast := Int.floor_le (high / step)
  have hlast' := Int.lt_floor_add_one (high / step)
  have hmore : (least : ℤ) < ⌊high / step⌋ - ⌈low / step⌉ + 2 := by
    rw [← Int.cast_lt (R := ℚ)]
    push_cast
    linarith
  have hless : ⌊high / step⌋ - ⌈low / step⌉ < (most : ℤ) := by
    rw [← Int.cast_lt (R := ℚ)]
    push_cast
    linarith
  rw [length_intRange]
  omega

end Lines

namespace Span

variable (s : Span ℚ)

/-- The step of the grid of a span. -/
def gridStep : ℚ :=
  niceStep ((s.high - s.low) / 10)

/-- The ends of a span in steps of its grid are numbers of 64 bits. -/
def FitsGrid : Prop :=
  -2 ^ 63 ≤ s.low / s.gridStep ∧ s.high / s.gridStep < 2 ^ 63

/-- The lines are the multiples of the step of the grid from one end of the span
to the other, in increasing order, and neither few nor many. -/
structure IsGrid (lines : List ℚ) : Prop where
  increasing : lines.Pairwise (· < ·)
  mem_iff : ∀ q, q ∈ lines ↔
    (∃ k : ℤ, q = k * s.gridStep) ∧ s.low ≤ q ∧ q ≤ s.high
  six_le : 6 ≤ lines.length
  le_fifteen : lines.length ≤ 15

variable {s}

/-- What puts the points of a span in an order and between the edges of a
canvas does so with the lines. -/
theorem IsGrid.places {lines : List ℚ} (hgrid : s.IsGrid lines)
    {before : ℚ → ℚ → Prop} {place : ℚ → ℚ} {size : ℚ}
    (horder : ∀ p q, p < q → before (place p) (place q))
    (hedges : ∀ q, s.low ≤ q → q ≤ s.high → 0 ≤ place q ∧ place q ≤ size) :
    (lines.map place).Pairwise before ∧
      ∀ p ∈ lines.map place, 0 ≤ p ∧ p ≤ size := by
  refine ⟨hgrid.increasing.map _ horder, ?_⟩
  intro p hp
  obtain ⟨q, hq, rfl⟩ := List.mem_map.1 hp
  obtain ⟨-, hlow, hhigh⟩ := (hgrid.mem_iff q).1 hq
  exact hedges q hlow hhigh

variable (hproper : s.low < s.high)

include hproper

theorem gridStep_bounds :
    0 < s.gridStep ∧ 6 * s.gridStep ≤ s.high - s.low ∧
      s.high - s.low < 15 * s.gridStep := by
  have htenth : 0 < (s.high - s.low) / 10 := by linarith
  obtain ⟨hpos, hlower, hupper⟩ := niceStep_bounds htenth
  refine ⟨hpos, ?_, ?_⟩ <;> rw [gridStep] <;> linarith

theorem isGrid_grid (hfits : s.FitsGrid) : s.IsGrid s.grid := by
  obtain ⟨hpos, hleast, hmost⟩ := gridStep_bounds hproper
  have hspan : s.low + s.gridStep ≤ s.high := by linarith
  have hgrid : s.grid = (intRange ⌈s.low / s.gridStep⌉
      ⌊s.high / s.gridStep⌋).map fun k : ℤ => k * s.gridStep :=
    gridLines_eq hpos hspan hfits.1 hfits.2
  obtain ⟨hsix, hfifteen⟩ := length_lines hpos 6 15
    (by exact_mod_cast hleast) (by exact_mod_cast hmost)
  rw [hgrid]
  refine ⟨pairwise_lines hpos, fun q => mem_lines_iff hpos, ?_, ?_⟩
  · rwa [List.length_map]
  · rwa [List.length_map]

theorem portion_lt_portion {p q : ℚ} (hpq : p < q) :
    s.portion p < s.portion q := by
  have hlength : 0 < s.high - s.low := sub_pos.2 hproper
  exact div_lt_div_of_pos_right (sub_lt_sub_right hpq _) hlength

theorem portion_mem_Icc {q : ℚ} (hlow : s.low ≤ q) (hhigh : q ≤ s.high) :
    0 ≤ s.portion q ∧ s.portion q ≤ 1 := by
  have hlength : 0 < s.high - s.low := sub_pos.2 hproper
  exact ⟨div_nonneg (sub_nonneg.2 hlow) hlength.le,
    (div_le_one hlength).2 (sub_le_sub_right hhigh _)⟩

end Span

/-- Exact ends are finite. -/
theorem Span.check_eq_ok_iff {axis : Axis} {s : Span ℚ} {u : Unit} :
    s.check axis = .ok u ↔ s.low < s.high := by
  have hproper : s.isProper = decide (s.low < s.high) := rfl
  rw [Span.check, hproper]
  by_cases h : s.low < s.high
  · simp [h]
  · simp [h]

namespace Viewport

theorem ofSpans_eq_ok_iff {x y : Span ℚ} {v : Viewport ℚ} :
    ofSpans x y = .ok v ↔ x.low < x.high ∧ y.low < y.high ∧ v = ⟨x, y⟩ := by
  simp only [ofSpans, bind_eq_ok_iff, Span.check_eq_ok_iff, pure_eq_ok,
    Except.ok.injEq]
  constructor
  · rintro ⟨-, hx, -, hy, rfl⟩
    exact ⟨hx, hy, rfl⟩
  · rintro ⟨hx, hy, rfl⟩
    exact ⟨(), hx, (), hy, rfl⟩

section Canvas

variable {v : Viewport ℚ} {size : ℚ} (hsize : 0 < size)

include hsize

/-- Columns are counted in the direction of the axis. -/
theorem mapX_lt_mapX (hproper : v.x.low < v.x.high) {p q : ℚ} (hpq : p < q) :
    v.mapX p size < v.mapX q size :=
  mul_lt_mul_of_pos_right (Span.portion_lt_portion hproper hpq) hsize

theorem mapX_mem_Icc (hproper : v.x.low < v.x.high) {q : ℚ}
    (hlow : v.x.low ≤ q) (hhigh : q ≤ v.x.high) :
    0 ≤ v.mapX q size ∧ v.mapX q size ≤ size := by
  obtain ⟨hzero, hone⟩ := Span.portion_mem_Icc hproper hlow hhigh
  exact ⟨mul_nonneg hzero hsize.le, mul_le_of_le_one_left hsize.le hone⟩

/-- Rows are counted against the direction of the axis. -/
theorem mapY_lt_mapY (hproper : v.y.low < v.y.high) {p q : ℚ} (hpq : p < q) :
    v.mapY q size < v.mapY p size :=
  sub_lt_sub_left (mul_lt_mul_of_pos_right
    (Span.portion_lt_portion hproper hpq) hsize) size

theorem mapY_mem_Icc (hproper : v.y.low < v.y.high) {q : ℚ}
    (hlow : v.y.low ≤ q) (hhigh : q ≤ v.y.high) :
    0 ≤ v.mapY q size ∧ v.mapY q size ≤ size := by
  obtain ⟨hzero, hone⟩ := Span.portion_mem_Icc hproper hlow hhigh
  exact ⟨sub_nonneg.2 (mul_le_of_le_one_left hsize.le hone),
    sub_le_self size (mul_nonneg hzero hsize.le)⟩

end Canvas

end Viewport

/-- The decade of a step is the largest power of ten not above it. A viewport
whose ends fit 64 bits in steps of a grid has in each direction a grid of all
multiples of the step, from six to fifteen of them. On a canvas they are drawn
in order between the edges, the lines of `y` from the bottom to the top. -/
theorem viewport_grids_usable {x y : Span ℚ} {v : Viewport ℚ}
    (h : Viewport.ofSpans x y = .ok v) :
    (∀ step : ℚ, 0 < step →
      IsGreatest {p : ℚ | (∃ e : ℤ, p = 10 ^ e) ∧ p ≤ step}
        (GridScalar.decade step)) ∧
    (x.FitsGrid → x.IsGrid v.xGrid ∧ ∀ width, 0 < width →
      (v.xGrid.map fun q => v.mapX q width).Pairwise (· < ·) ∧
      ∀ column ∈ v.xGrid.map fun q => v.mapX q width,
        0 ≤ column ∧ column ≤ width) ∧
    (y.FitsGrid → y.IsGrid v.yGrid ∧ ∀ height, 0 < height →
      (v.yGrid.map fun q => v.mapY q height).Pairwise (· > ·) ∧
      ∀ row ∈ v.yGrid.map fun q => v.mapY q height,
        0 ≤ row ∧ row ≤ height) := by
  obtain ⟨hx, hy, rfl⟩ := Viewport.ofSpans_eq_ok_iff.1 h
  refine ⟨fun step hstep => isGreatest_decade hstep, ?_, ?_⟩
  · intro hfits
    have hgrid : x.IsGrid (Viewport.xGrid ⟨x, y⟩) := Span.isGrid_grid hx hfits
    refine ⟨hgrid, fun width hwidth => hgrid.places ?_ ?_⟩
    · exact fun p q hpq => Viewport.mapX_lt_mapX hwidth hx hpq
    · exact fun q => Viewport.mapX_mem_Icc (v := ⟨x, y⟩) hwidth hx
  · intro hfits
    have hgrid : y.IsGrid (Viewport.yGrid ⟨x, y⟩) := Span.isGrid_grid hy hfits
    refine ⟨hgrid, fun height hheight => hgrid.places ?_ ?_⟩
    · exact fun p q hpq => Viewport.mapY_lt_mapY hheight hy hpq
    · exact fun q => Viewport.mapY_mem_Icc (v := ⟨x, y⟩) hheight hy

/-- A grid of six lines, and one of fifteen below zero. -/
theorem grids_of_tight_viewport :
    ∃ v : Viewport ℚ,
      Viewport.ofSpans ⟨1 / 10, 301 / 10⟩ ⟨-149 / 10, 0⟩ = .ok v ∧
      Span.IsGrid ⟨1 / 10, 301 / 10⟩ [5, 10, 15, 20, 25, 30] ∧
      v.yGrid.length = 15 ∧
      (v.xGrid.map fun q => v.mapX q 300).Pairwise (· < ·) ∧
      (v.yGrid.map fun q => v.mapY q 298).Pairwise (· > ·) := by
  have hv : Viewport.ofSpans (R := ℚ) ⟨1 / 10, 301 / 10⟩ ⟨-149 / 10, 0⟩ =
      .ok ⟨⟨1 / 10, 301 / 10⟩, ⟨-149 / 10, 0⟩⟩ :=
    Viewport.ofSpans_eq_ok_iff.2 ⟨by norm_num, by norm_num, rfl⟩
  have hfits : Span.FitsGrid ⟨1 / 10, 301 / 10⟩ :=
    ⟨by decide +kernel, by decide +kernel⟩
  have hfits' : Span.FitsGrid ⟨-149 / 10, 0⟩ :=
    ⟨by decide +kernel, by decide +kernel⟩
  have hlines : Viewport.xGrid (R := ℚ) ⟨⟨1 / 10, 301 / 10⟩, ⟨-149 / 10, 0⟩⟩ =
      [5, 10, 15, 20, 25, 30] := by
    decide +kernel
  obtain ⟨-, hx, hy⟩ := viewport_grids_usable hv
  obtain ⟨hgrid, hcolumns⟩ := hx hfits
  obtain ⟨-, hrows⟩ := hy hfits'
  rw [hlines] at hgrid
  refine ⟨_, hv, hgrid, ?_, ?_, ?_⟩
  · decide +kernel
  · exact (hcolumns 300 (by decide)).1
  · exact (hrows 298 (by decide)).1

end SciCalc
