import SciCalc.Proofs.Decimal.LeadingExponent

/-!
# Exact values of doubles

A finite double stands for a rational number. What is read off its bits is the
sign and the magnitude of this number, and magnitudes are compared as numbers.
-/

namespace SciCalc.Decimal

open Float.Model (Format UnpackedFloat)
open Float.Model.UnpackedFloat

namespace Binary

/-- The number that a magnitude is. -/
def value (b : Binary) : ℚ :=
  b.mantissa * 2 ^ b.exponent

theorem numerator_div_denominator (b : Binary) :
    (b.numerator / b.denominator : ℚ) = b.value := by
  rw [value, zpow_eq_toNat_div (by norm_num), numerator, denominator]
  simp only [Nat.pow_eq]
  push_cast
  rw [mul_div_assoc]

theorem value_nonneg (b : Binary) : 0 ≤ b.value := by
  rw [value]
  positivity

theorem value_eq_zero_iff (b : Binary) : b.value = 0 ↔ b.mantissa = 0 := by
  rw [value, mul_eq_zero, Nat.cast_eq_zero]
  exact or_iff_left (zpow_ne_zero _ (by norm_num))

theorem less_iff (a b : Binary) : a.less b = true ↔ a.value < b.value := by
  have hden (c : Binary) : (0 : ℚ) < c.denominator :=
    Nat.cast_pos.2 c.denominator_pos
  rw [less, decide_eq_true_eq, ← numerator_div_denominator,
    ← numerator_div_denominator, div_lt_div_iff₀ (hden a) (hden b)]
  norm_cast

end Binary

/-- A magnitude with its sign. -/
def signed (negative : Bool) (x : ℚ) : ℚ :=
  if negative then -x else x

@[simp]
theorem signed_zero (negative : Bool) : signed negative 0 = 0 := by
  cases negative <;> simp [signed]

@[simp]
theorem abs_signed (negative : Bool) (x : ℚ) : |signed negative x| = |x| := by
  cases negative <;> simp [signed]

/-- The sign of a number other than zero is determined by the number. -/
theorem signed_inj {b c : Bool} {x y : ℚ} (hx : 0 ≤ x) (hy : 0 ≤ y)
    (h : signed b x = signed c y) : x = y ∧ (x ≠ 0 → b = c) := by
  have hxy : x = y := by
    rw [← abs_of_nonneg hx, ← abs_of_nonneg hy, ← abs_signed b, h, abs_signed]
  refine ⟨hxy, fun hne => ?_⟩
  have hpos : 0 < x := lt_of_le_of_ne hx hne.symm
  rw [← hxy] at h
  cases b <;> cases c <;> simp only [signed] at h ⊢ <;> grind

/-- The number that an unpacked double stands for; infinities and what is not a
number count as zero. -/
def unpackedValue : UnpackedFloat → ℚ
  | .finite sign mantissa exponent _ => sign.apply mantissa * 2 ^ exponent
  | _ => 0

/-- The number that a finite double stands for. -/
def exactValue (x : Float) : ℚ :=
  unpackedValue (unpack Format.binary64 x.toBits.toBitVec)

section Fields

variable (bits : BitVec 64)

theorem toNat_unpackMantissa :
    (@unpackMantissa Format.binary64 bits).toNat = bits.toNat % 2 ^ 52 := by
  simp only [unpackMantissa, BitVec.toNat_cast, BitVec.extractLsb_toNat]
  rfl

theorem toNat_unpackExponent :
    (@unpackExponent Format.binary64 bits).toNat =
      bits.toNat / 2 ^ 52 % 2 ^ 11 := by
  simp only [unpackExponent, BitVec.toNat_cast, BitVec.extractLsb_toNat]
  exact congrArg (· % _) (Nat.shiftRight_eq_div_pow _ _)

theorem toNat_unpackSign :
    (@unpackSign Format.binary64 bits).toNat = bits.toNat / 2 ^ 63 % 2 := by
  simp only [unpackSign, BitVec.toNat_cast, BitVec.extractLsb_toNat]
  exact congrArg (· % _) (Nat.shiftRight_eq_div_pow _ _)

theorem apply_unpackSign_mul (n : ℕ) (q : ℚ) :
    ((Sign.ofBitVec (@unpackSign Format.binary64 bits)).apply n * q : ℚ) =
      signed (decide (bits.toNat / 2 ^ 63 % 2 = 1)) (n * q) := by
  have hzero : @unpackSign Format.binary64 bits = 0#1 ↔
      ¬bits.toNat / 2 ^ 63 % 2 = 1 := by
    rw [← BitVec.toNat_inj, toNat_unpackSign, BitVec.toNat_ofNat]
    omega
  simp only [Sign.ofBitVec, hzero, signed, decide_eq_true_eq]
  split_ifs <;> simp [Sign.apply]

/-- Without a hidden bit the exponent is the least one. -/
theorem unpackedValue_of_zero
    (hzero : @unpackExponent Format.binary64 bits = 0#11) :
    unpackedValue (unpack Format.binary64 bits) =
      (Sign.ofBitVec (@unpackSign Format.binary64 bits)).apply
        (@unpackMantissa Format.binary64 bits).toNat * 2 ^ (-1074 : ℤ) := by
  unfold unpack
  simp only [hzero]
  rw [if_neg (by decide), if_pos trivial]
  split_ifs with hmantissa
  · rw [hmantissa]
    cases Sign.ofBitVec (@unpackSign Format.binary64 bits) <;>
      simp [unpackedValue, Sign.apply]
  · rfl

theorem unpackedValue_of_ne_zero
    (hzero : @unpackExponent Format.binary64 bits ≠ 0#11)
    (hall : @unpackExponent Format.binary64 bits ≠ -1#11) :
    unpackedValue (unpack Format.binary64 bits) =
      (Sign.ofBitVec (@unpackSign Format.binary64 bits)).apply
        (2 ^ 52 + (@unpackMantissa Format.binary64 bits).toNat : ℕ) *
        2 ^ ((@unpackExponent Format.binary64 bits).toNat - 1075 : ℤ) := by
  have hhidden : (1#1 ++ @unpackMantissa Format.binary64 bits).toNat =
      2 ^ 52 + (@unpackMantissa Format.binary64 bits).toNat := by
    rw [BitVec.toNat_append, ← Nat.shiftLeft_add_eq_or_of_lt (BitVec.isLt _),
      Nat.shiftLeft_eq]
    rfl
  unfold unpack
  simp only
  rw [if_neg hall, if_neg hzero, unpackedValue, hhidden]
  rfl

end Fields

section Readings

variable {x : Float}

theorem unpackExponent_eq_zero_iff :
    @unpackExponent Format.binary64 x.toBits.toBitVec = 0#11 ↔
      x.toBits.toNat / Nat.pow 2 52 % Nat.pow 2 11 = 0 := by
  rw [← BitVec.toNat_inj, toNat_unpackExponent]
  rfl

theorem unpackExponent_eq_all_iff :
    @unpackExponent Format.binary64 x.toBits.toBitVec = -1#11 ↔
      x.toBits.toNat / Nat.pow 2 52 % Nat.pow 2 11 = Nat.pow 2 11 - 1 := by
  rw [← BitVec.toNat_inj, toNat_unpackExponent]
  rfl

/-- An infinity or a value that is not a number has all bits of its exponent
set. -/
theorem unpackExponent_ne_of_isFinite (hfinite : x.isFinite = true) :
    @unpackExponent Format.binary64 x.toBits.toBitVec ≠ -1#11 := by
  intro hall
  have hnot : x.isFinite = false := by
    change (unpack Format.binary64 x.toBits.toBitVec).isFinite = false
    unfold unpack
    simp only [hall]
    rw [if_pos trivial]
    split <;> rfl
  rw [hnot] at hfinite
  cases hfinite

/-- A double whose sign bit is clear has no minus sign. -/
theorem exists_reading (hfinite : x.isFinite = true) :
    ∃ negative b, Reading.ofFloat x = .finite negative b ∧
      (x.toBits.toNat < 2 ^ 63 → negative = false) := by
  have hall := mt unpackExponent_eq_all_iff.2
    (unpackExponent_ne_of_isFinite hfinite)
  have hsign (hclear : x.toBits.toNat < 2 ^ 63) :
      decide (x.toBits.toNat / Nat.pow 2 63 % 2 = 1) = false := by
    have hsmall : x.toBits.toNat / Nat.pow 2 63 = 0 := Nat.div_eq_of_lt hclear
    rw [hsmall]
    rfl
  simp only [Reading.ofFloat, Reading.ofBits, if_neg hall]
  split
  · exact ⟨_, _, rfl, hsign⟩
  · exact ⟨_, _, rfl, hsign⟩

/-- What is read off the bits of a finite double is its value. -/
theorem exactValue_of_reading {negative : Bool} {b : Binary}
    (h : Reading.ofFloat x = .finite negative b) :
    exactValue x = signed negative b.value := by
  unfold Reading.ofFloat Reading.ofBits at h
  simp only at h
  split_ifs at h with hall hfraction hzero <;> cases h
  · have hfield := unpackExponent_eq_zero_iff.2 hzero
    rw [exactValue, unpackedValue_of_zero _ hfield, apply_unpackSign_mul,
      toNat_unpackMantissa]
    rfl
  · have hfield := mt unpackExponent_eq_zero_iff.1 hzero
    have hfinite := mt unpackExponent_eq_all_iff.1 hall
    rw [exactValue, unpackedValue_of_ne_zero _ hfield hfinite,
      apply_unpackSign_mul, toNat_unpackMantissa, toNat_unpackExponent]
    rfl

end Readings

end SciCalc.Decimal
