import SciCalc.Proofs.Decimal.ExactValue

/-!
# Nearest whole numbers

Rounding on a decimal grid takes the whole number of units that is nearest to
the exact fraction, the even one of two. Rounded to so many significant digits
a positive fraction keeps the unit that its leading digit asks for; only when
all digits carry does the next decade write the same number.
-/

namespace SciCalc.Decimal

/-- The whole number nearest to a fraction, the even one of two. -/
structure IsNearest (x : ℚ) (n : ℤ) : Prop where
  within_half : |x - n| ≤ 1 / 2
  even_of_tie : |x - n| = 1 / 2 → Even n

namespace IsNearest

variable {x : ℚ} {m n : ℤ}

theorem of_lt (h : |x - n| < 1 / 2) : IsNearest x n :=
  ⟨h.le, fun htie => absurd htie h.ne⟩

theorem neg (h : IsNearest x n) : IsNearest (-x) (-n) := by
  have hdistance : |(-x) - (-n : ℤ)| = |x - n| := by
    rw [← abs_neg]
    congr 1
    push_cast
    ring
  constructor
  · rw [hdistance]
    exact h.within_half
  · rw [hdistance]
    exact fun htie => (h.even_of_tie htie).neg

/-- Two neighbours that are equally near are not both even. -/
theorem unique (hm : IsNearest x m) (hn : IsNearest x n) : m = n := by
  wlog hle : m ≤ n generalizing m n
  · exact (this hn hm (le_of_not_ge hle)).symm
  have hlow := abs_le.1 hm.within_half
  have hhigh := abs_le.1 hn.within_half
  have hstep : n ≤ m + 1 := by
    rw [← Int.cast_le (R := ℚ)]
    push_cast
    linarith
  obtain heq | rfl : n = m ∨ n = m + 1 := by omega
  · exact heq.symm
  · push_cast at hhigh
    have htie : x - m = 1 / 2 := by linarith
    have heven := hm.even_of_tie (by rw [htie]; norm_num)
    have heven' := hn.even_of_tie (by
      rw [Int.cast_add, Int.cast_one, ← sub_sub, htie]
      norm_num)
    exact absurd heven' (Int.not_even_iff_odd.2 heven.add_one)

/-- A nearest whole number stays between whole bounds. -/
theorem bounds (h : IsNearest x n) (low high : ℤ) (hlow : low ≤ x)
    (hhigh : x ≤ high) : low ≤ n ∧ n ≤ high := by
  have hhalf := abs_le.1 h.within_half
  constructor
  · rw [← Int.lt_add_one_iff, ← Int.cast_lt (R := ℚ)]
    push_cast
    linarith
  · rw [← Int.lt_add_one_iff, ← Int.cast_lt (R := ℚ)]
    push_cast
    linarith

end IsNearest

/-- The multiple of `10 ^ unit` nearest to a fraction. -/
def IsRounded (x : ℚ) (unit : ℤ) (y : ℚ) : Prop :=
  ∃ n : ℤ, IsNearest (x / 10 ^ unit) n ∧ y = n * 10 ^ unit

theorem IsRounded.neg {x y : ℚ} {unit : ℤ} (h : IsRounded x unit y) :
    IsRounded (-x) unit (-y) := by
  obtain ⟨n, hn, rfl⟩ := h
  refine ⟨-n, ?_, ?_⟩
  · rw [neg_div]
    exact hn.neg
  · push_cast
    ring

theorem IsRounded.signed {x y : ℚ} {unit : ℤ} (h : IsRounded x unit y)
    (negative : Bool) :
    IsRounded (signed negative x) unit (signed negative y) := by
  cases negative
  · exact h
  · exact h.neg

theorem IsRounded.unique {x y z : ℚ} {unit : ℤ} (hy : IsRounded x unit y)
    (hz : IsRounded x unit z) : y = z := by
  obtain ⟨m, hm, rfl⟩ := hy
  obtain ⟨n, hn, rfl⟩ := hz
  rw [hm.unique hn]

/-- Where a value has one numeral, one numeral is that of the rounded value. -/
theorem IsRounded.iff_eq {α : Type*} {value : α → ℚ}
    (hvalue : Function.Injective value) {x : ℚ} {unit : ℤ} {t : α}
    (ht : IsRounded x unit (value t)) (u : α) :
    IsRounded x unit (value u) ↔ u = t := by
  constructor
  · exact fun hu => hvalue (hu.unique ht)
  · rintro rfl
    exact ht

/-! ## Rounding -/

section Fractions

variable {num den : ℕ}

/-- The rest of the division is compared with the half of the divisor. -/
theorem isNearest_roundDiv (hden : 0 < den) :
    IsNearest (num / den) (roundDiv num den : ℕ) := by
  have hcast : (0 : ℚ) < den := Nat.cast_pos.2 hden
  have hsplit : (num / den : ℚ) = (num / den : ℕ) + (num % den : ℕ) / den := by
    have hfloor : ((num / den : ℕ) : ℚ) = (⌊(num / den : ℚ)⌋ : ℤ) := by
      rw [Rat.floor_natCast_div_natCast]
      norm_cast
    rw [hfloor, ← Int.fract_div_natCast_eq_div_natCast_mod,
      Int.floor_add_fract]
  have hless : 2 * (num % den) < den ↔ ((num % den : ℕ) / den : ℚ) < 1 / 2 := by
    rw [div_lt_iff₀ hcast, ← Nat.cast_lt (α := ℚ)]
    push_cast
    constructor <;> intro h <;> linarith
  have hmore : den < 2 * (num % den) ↔ 1 / 2 < ((num % den : ℕ) / den : ℚ) := by
    rw [lt_div_iff₀ hcast, ← Nat.cast_lt (α := ℚ)]
    push_cast
    constructor <;> intro h <;> linarith
  have hnonneg : (0 : ℚ) ≤ (num % den : ℕ) / den := by positivity
  have hone : ((num % den : ℕ) / den : ℚ) < 1 := by
    rw [div_lt_one hcast]
    exact_mod_cast Nat.mod_lt num hden
  simp only [roundDiv, hless, hmore]
  rw [hsplit]
  generalize ((num % den : ℕ) / den : ℚ) = rest at *
  generalize num / den = quotient at *
  split_ifs with hbelow habove heven
  · refine .of_lt ?_
    rw [Int.cast_natCast, add_sub_cancel_left, abs_of_nonneg hnonneg]
    exact hbelow
  · refine .of_lt ?_
    push_cast
    rw [add_sub_add_left_eq_sub, abs_sub_comm, abs_of_pos (sub_pos.2 hone)]
    linarith
  · obtain rfl : rest = 1 / 2 := le_antisymm (not_lt.1 habove) (not_lt.1 hbelow)
    refine ⟨?_, fun _ => (Int.even_coe_nat _).2 (Nat.even_iff.2 heven)⟩
    rw [Int.cast_natCast, add_sub_cancel_left]
    norm_num
  · obtain rfl : rest = 1 / 2 := le_antisymm (not_lt.1 habove) (not_lt.1 hbelow)
    refine ⟨?_, fun _ => (Int.even_coe_nat _).2 (Nat.even_add_one.2 ?_)⟩
    · push_cast
      rw [add_sub_add_left_eq_sub]
      norm_num
    · rwa [Nat.even_iff]

theorem inUnits_eq (num den : ℕ) (unit : ℤ) :
    ((inUnits num den unit).1 / (inUnits num den unit).2 : ℚ) =
      num / den / 10 ^ unit := by
  rw [zpow_eq_toNat_div (by norm_num)]
  simp only [inUnits, Nat.pow_eq]
  push_cast
  rw [div_div_div_eq]

theorem isNearest_roundToUnit (hden : 0 < den) (unit : ℤ) :
    IsNearest (num / den / 10 ^ unit) (roundToUnit num den unit : ℕ) := by
  rw [← inUnits_eq]
  exact isNearest_roundDiv (Nat.mul_pos hden (Nat.pow_pos (by decide)))

end Fractions

section Digits

variable {num den : ℕ} (hnum : 0 < num) (hden : 0 < den)

include hnum hden

/-- In the unit of the last digit the fraction has `count` digits in front of
its point. -/
theorem units_of_digits (count : ℕ) :
    (10 : ℚ) ^ count ≤ num / den / 10 ^ (Int.log 10 (num / den : ℚ) - count) ∧
      (num / den / 10 ^ (Int.log 10 (num / den : ℚ) - count) : ℚ) <
        10 ^ (count + 1) := by
  have hpos : (0 : ℚ) < num / den :=
    div_pos (Nat.cast_pos.2 hnum) (Nat.cast_pos.2 hden)
  have hten : (10 : ℚ) ≠ 0 := by norm_num
  have hlower := Int.zpow_log_le_self (b := 10) (by decide) hpos
  have hupper := Int.lt_zpow_succ_log_self (b := 10) (by decide) (num / den : ℚ)
  generalize (num / den : ℚ) = x at *
  rw [le_div_iff₀ (by positivity), div_lt_iff₀ (by positivity), ← zpow_natCast,
    ← zpow_natCast, ← zpow_add₀ hten, ← zpow_add₀ hten]
  push_cast
  rw [add_sub_cancel, add_right_comm, add_sub_cancel]
  exact ⟨by exact_mod_cast hlower, by exact_mod_cast hupper⟩

/-- The coefficient has exactly the digits that are asked for. -/
theorem roundToDigits_spec (more : ℕ) :
    let c := roundToDigits (more + 1) num den
    let unit := Int.log 10 (num / den : ℚ) - more
    10 ^ more ≤ c.coefficient ∧ c.coefficient < 10 ^ (more + 1) ∧
      (c.exponent = unit ∨ c.exponent = unit + 1) ∧
      IsRounded (num / den) unit (c.coefficient * 10 ^ c.exponent) := by
  intro c unit
  have hnearest : IsNearest (num / den / 10 ^ unit)
      (roundToUnit num den unit : ℕ) := isNearest_roundToUnit hden unit
  obtain ⟨hlow, hhigh⟩ := units_of_digits hnum hden more
  obtain ⟨hleast, hmost⟩ := hnearest.bounds (10 ^ more : ℕ)
    (10 ^ (more + 1) : ℕ) (by exact_mod_cast hlow) (by exact_mod_cast hhigh.le)
  have hc : c = if roundToUnit num den unit = Nat.pow 10 (more + 1) then
      ⟨Nat.pow 10 more, unit + 1⟩ else ⟨roundToUnit num den unit, unit⟩ := by
    simp only [c, roundToDigits, leadingExponent_eq_log hnum hden]
    rfl
  rw [hc]
  split_ifs with hcarry
  · refine ⟨le_rfl, Nat.pow_lt_pow_succ (by decide), .inr rfl, _, hnearest, ?_⟩
    rw [hcarry, zpow_add_one₀ (by norm_num)]
    simp only [Nat.pow_eq]
    push_cast
    ring
  · refine ⟨by exact_mod_cast hleast, lt_of_le_of_ne (by exact_mod_cast hmost)
      hcarry, .inl rfl, _, hnearest, ?_⟩
    push_cast
    rfl

end Digits

end SciCalc.Decimal
