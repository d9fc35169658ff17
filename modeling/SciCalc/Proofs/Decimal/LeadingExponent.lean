import Mathlib
import SciCalc.Decimal.Rounding

/-!
# Exponents of leading digits

The digits of a whole number are counted by its logarithm to the base ten, and
the exponent of the leading digit of a positive fraction is the logarithm of the
fraction.
-/

namespace SciCalc.Decimal

/-- A power with the exponent split into two whole numbers, one of them zero. -/
theorem zpow_eq_toNat_div {b : ℚ} (hb : b ≠ 0) (e : ℤ) :
    b ^ e = b ^ e.toNat / b ^ (-e).toNat := by
  have hsplit : e = (e.toNat : ℤ) - ((-e).toNat : ℤ) := by omega
  conv_lhs => rw [hsplit, zpow_sub₀ hb, zpow_natCast, zpow_natCast]

theorem digitCount_eq_log (n : ℕ) : digitCount n = Nat.log 10 n + 1 := by
  induction n using digitCount.induct with
  | case1 n hsmall =>
      rw [digitCount, if_pos hsmall, Nat.log_of_lt hsmall]
  | case2 n hlarge ih =>
      rw [digitCount, if_neg hlarge, ih,
        Nat.log_of_one_lt_of_le (by decide) (not_lt.1 hlarge)]

theorem clog_succ_eq_digitCount {n : ℕ} (hn : n ≠ 0) :
    Nat.clog 10 (n + 1) = digitCount n := by
  refine eq_of_forall_lt_iff fun k => ?_
  rw [Nat.lt_clog_iff_pow_lt (by decide), Nat.lt_succ_iff,
    ← Nat.le_log_iff_pow_le (by decide) hn, digitCount_eq_log, Nat.lt_succ_iff]

/-- A quotient is rounded up without leaving the whole numbers. -/
theorem ceil_div_eq {num den : ℕ} (hnum : 0 < num) (hden : 0 < den) :
    ⌈(den / num : ℚ)⌉₊ = (den - 1) / num + 1 := by
  refine eq_of_forall_ge_iff fun k => ?_
  have hcast : (0 : ℚ) < num := Nat.cast_pos.2 hnum
  rw [Nat.ceil_le, div_le_iff₀ hcast, ← Nat.cast_mul, Nat.cast_le,
    Nat.succ_le_iff, Nat.div_lt_iff_lt_mul hnum]
  omega

theorem leadingExponent_eq_log {num den : ℕ} (hnum : 0 < num) (hden : 0 < den) :
    leadingExponent num den = Int.log 10 (num / den : ℚ) := by
  have hcast : (0 : ℚ) < den := Nat.cast_pos.2 hden
  unfold leadingExponent
  split
  · next hle =>
    have hone : (1 : ℚ) ≤ num / den := (one_le_div hcast).2 (Nat.cast_le.2 hle)
    rw [Int.log_of_one_le_right 10 hone, Nat.floor_div_eq_div, digitCount_eq_log]
    simp
  · next hlt =>
    -- Below one it is the inverse that is rounded, upwards.
    have hone : (num / den : ℚ) ≤ 1 :=
      (div_le_one hcast).2 (Nat.cast_le.2 (not_le.1 hlt).le)
    have hquotient : (den - 1) / num ≠ 0 := by
      rw [Nat.div_ne_zero_iff]
      omega
    rw [Int.log_of_right_le_one 10 hone, inv_div, ceil_div_eq hnum hden,
      clog_succ_eq_digitCount hquotient]

end SciCalc.Decimal
