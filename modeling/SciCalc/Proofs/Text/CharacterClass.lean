import Mathlib
import SciCalc.Text.DecimalDigit

/-!
# Classes of characters

Letters, digits and white space have no character in common. The classes of
letters and digits are those of ASCII; white space is the Unicode property. A
decimal digit of another script lies beyond ASCII and is no white space.
-/

namespace SciCalc.Text

theorem isDigit_iff {c : Char} :
    c.isDigit = true ↔ 48 ≤ c.toNat ∧ c.toNat ≤ 57 := by
  simp only [Char.isDigit, ge_iff_le, Bool.and_eq_true, decide_eq_true_eq,
    UInt32.le_iff_toNat_le]
  rfl

theorem isAlpha_iff {c : Char} :
    c.isAlpha = true ↔
      (65 ≤ c.toNat ∧ c.toNat ≤ 90) ∨ (97 ≤ c.toNat ∧ c.toNat ≤ 122) := by
  simp only [Char.isAlpha, Char.isUpper, Char.isLower, ge_iff_le,
    Bool.or_eq_true, Bool.and_eq_true, decide_eq_true_eq,
    UInt32.le_iff_toNat_le]
  rfl

theorem not_isDigit_of_isAlpha {c : Char} (h : c.isAlpha = true) :
    c.isDigit = false := by
  have halpha := isAlpha_iff.1 h
  rw [Bool.eq_false_iff, ne_eq, isDigit_iff]
  omega

/-- White space lies between the controls and the digits, or beyond ASCII. -/
theorem toNat_of_isBlank {c : Char} (h : isBlank c = true) :
    c.toNat ≤ 32 ∨ 133 ≤ c.toNat := by
  simp only [isBlank, inRanges, blankRanges, List.any_cons, List.any_nil,
    Bool.or_eq_true, Bool.and_eq_true, decide_eq_true_eq, Bool.false_eq_true,
    or_false] at h
  omega

theorem not_isAlpha_of_isBlank {c : Char} (h : isBlank c = true) :
    c.isAlpha = false := by
  have hblank := toNat_of_isBlank h
  rw [Bool.eq_false_iff, ne_eq, isAlpha_iff]
  omega

theorem not_isDigit_of_isBlank {c : Char} (h : isBlank c = true) :
    c.isDigit = false := by
  have hblank := toNat_of_isBlank h
  rw [Bool.eq_false_iff, ne_eq, isDigit_iff]
  omega

/-- A member of a class is none of the characters outside it. -/
theorem ne_of_class {f : Char → Bool} {c d : Char} (h : f c = true)
    (hd : f d = false) : c ≠ d := by
  intro heq
  rw [heq, hd] at h
  cases h

/-! ## Decimal digits of all scripts -/

theorem inRanges_iff {ranges : List (Nat × Nat)} {code : Nat} :
    inRanges ranges code = true ↔
      ∃ r ∈ ranges, r.1 ≤ code ∧ code ≤ r.2 := by
  simp [inRanges]

theorem isDecimalDigit_of_isDigit {c : Char} (h : c.isDigit = true) :
    isDecimalDigit c = true :=
  inRanges_iff.2 ⟨(0x30, 0x39), .head _, isDigit_iff.1 h⟩

/-- Among the characters of ASCII the decimal digits are `0` to `9`. -/
theorem isDigit_of_isDecimalDigit {c : Char} (h : isDecimalDigit c = true)
    (hascii : c.toNat < 128) : c.isDigit = true := by
  obtain ⟨r, hr, hlow, hhigh⟩ := inRanges_iff.1 h
  have hranges : ∀ r ∈ decimalDigitRanges, r = (0x30, 0x39) ∨ 128 ≤ r.1 := by
    decide
  rcases hranges r hr with rfl | hbeyond
  · exact isDigit_iff.2 ⟨hlow, hhigh⟩
  · omega

theorem not_isBlank_of_isDecimalDigit {c : Char}
    (h : isDecimalDigit c = true) : isBlank c = false := by
  rw [Bool.eq_false_iff]
  intro hblank
  obtain ⟨r, hr, hlow, hhigh⟩ := inRanges_iff.1 h
  obtain ⟨b, hb, hlow', hhigh'⟩ := inRanges_iff.1 hblank
  have hdisjoint : ∀ r ∈ decimalDigitRanges, ∀ b ∈ blankRanges,
      r.2 < b.1 ∨ b.2 < r.1 := by decide
  have hapart := hdisjoint r hr b hb
  omega

/-- The decimal digits of the text are `0` to `9`. -/
def PlainDigits (text : List Char) : Prop :=
  ∀ c ∈ text, isDecimalDigit c = true → c.isDigit = true

theorem plainDigits_of_ascii {text : List Char}
    (h : (text.all fun c => c.toNat < 128) = true) : PlainDigits text := by
  intro c hc hdigit
  exact isDigit_of_isDecimalDigit hdigit
    (of_decide_eq_true (List.all_eq_true.1 h c hc))

theorem PlainDigits.mono {text part : List Char} (h : PlainDigits text)
    (hpart : part ⊆ text) : PlainDigits part :=
  fun c hc => h c (hpart hc)

theorem plainDigits_append {front back : List Char} :
    PlainDigits (front ++ back) ↔ PlainDigits front ∧ PlainDigits back :=
  List.forall_mem_append

end SciCalc.Text
