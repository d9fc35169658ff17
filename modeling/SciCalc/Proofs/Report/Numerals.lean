import SciCalc.Proofs.Decimal.DigitRuns

/-!
# Numerals of results

A numeral has one of two forms: with at most ten decimals, or with seven
significant digits and an exponent. Each form leaves no choice in how a number
is written.
-/

namespace SciCalc.Report

open Decimal

/-- A point and the digits behind it, if there are any. -/
def decimals (places : List Char) : List Char :=
  if places = [] then [] else '.' :: places

/-- A number with at most ten decimals, none of which is a superfluous zero. Zero
has no sign. -/
@[ext]
structure PlainNumeral where
  negative : Bool
  whole : List Char
  places : List Char
  isWhole : IsWhole whole
  isDigit : ∀ c ∈ places, c.isDigit = true
  length_le : places.length ≤ 10
  last_ne_zero : places.getLast? ≠ some '0'
  ne_zero : negative = true → natOfDigits (whole ++ places) ≠ 0

namespace PlainNumeral

def text (t : PlainNumeral) : List Char :=
  withSign t.negative (t.whole ++ decimals t.places)

def value (t : PlainNumeral) : ℚ :=
  signed t.negative (natOfDigits (t.whole ++ t.places) / 10 ^ t.places.length)

/-- Decimals can only be missing where the last ones would be zeros. -/
theorem eq_of_magnitude {whole whole' places places' : List Char}
    (hwhole : IsWhole whole) (hwhole' : IsWhole whole')
    (hplaces : ∀ c ∈ places, c.isDigit = true)
    (hplaces' : ∀ c ∈ places', c.isDigit = true)
    (hlast : places.getLast? ≠ some '0') (hlast' : places'.getLast? ≠ some '0')
    (hvalue : (natOfDigits (whole ++ places) / 10 ^ places.length : ℚ) =
      natOfDigits (whole' ++ places') / 10 ^ places'.length) :
    whole = whole' ∧ places = places' := by
  wlog hle : places.length ≤ places'.length
      generalizing whole whole' places places'
  · exact (this hwhole' hwhole hplaces' hplaces hlast' hlast hvalue.symm
      (le_of_not_ge hle)).imp Eq.symm Eq.symm
  obtain ⟨k, hk⟩ := Nat.exists_eq_add_of_le hle
  have hscaled : natOfDigits (whole ++ places) * 10 ^ k =
      natOfDigits (whole' ++ places') := by
    rw [div_eq_div_iff (by positivity) (by positivity), hk, pow_add,
      mul_left_comm, mul_comm] at hvalue
    exact_mod_cast mul_right_cancel₀ (by positivity) hvalue
  rw [← natOfDigits_append_zeros, List.append_assoc] at hscaled
  have hdigits := List.forall_mem_append.2 ⟨hplaces, isDigit_of_mem_zeros k⟩
  obtain ⟨hfront, hfilled⟩ := natOfDigits_append_inj
    (by rw [List.length_append, List.length_replicate, hk]) hdigits hplaces'
    hscaled
  refine ⟨hwhole.eq_of_natOfDigits hwhole' hfront, ?_⟩
  cases k with
  | zero => rwa [List.replicate_zero, List.append_nil] at hfilled
  | succ k =>
      rw [← hfilled, List.replicate_succ', ← List.append_assoc,
        List.getLast?_concat] at hlast'
      exact absurd rfl hlast'

/-- A number has one plain numeral. -/
theorem value_injective : Function.Injective value := by
  intro s t h
  obtain ⟨hmagnitude, hsign⟩ := signed_inj (by positivity) (by positivity) h
  obtain ⟨hwhole, hplaces⟩ := eq_of_magnitude s.isWhole t.isWhole s.isDigit
    t.isDigit s.last_ne_zero t.last_ne_zero hmagnitude
  have hnegative : s.negative = t.negative := by
    by_cases hzero : natOfDigits (s.whole ++ s.places) = 0
    · have hs : ¬s.negative = true := fun hs => s.ne_zero hs hzero
      have ht : ¬t.negative = true := fun ht =>
        t.ne_zero ht (by rw [← hwhole, ← hplaces, hzero])
      rw [Bool.not_eq_true] at hs ht
      rw [hs, ht]
    · exact hsign (div_ne_zero (Nat.cast_ne_zero.2 hzero) (by positivity))
  exact PlainNumeral.ext hnegative hwhole hplaces

end PlainNumeral

/-- A number with seven significant digits and an exponent other than zero. -/
@[ext]
structure ScientificNumeral where
  negative : Bool
  first : Char
  places : List Char
  exponentNegative : Bool
  exponent : List Char
  first_isDigit : first.isDigit = true
  first_ne_zero : first ≠ '0'
  isDigit : ∀ c ∈ places, c.isDigit = true
  length_eq : places.length = 6
  exponent_isWhole : IsWhole exponent
  exponent_ne_zero : natOfDigits exponent ≠ 0

namespace ScientificNumeral

def text (t : ScientificNumeral) : List Char :=
  withSign t.negative (t.first :: '.' :: (t.places ++
    'e' :: (if t.exponentNegative then '-' else '+') :: t.exponent))

/-- Its digits without the point. -/
def coefficient (t : ScientificNumeral) : ℕ :=
  natOfDigits (t.first :: t.places)

/-- The exponent that is written. -/
def decade (t : ScientificNumeral) : ℤ :=
  (if t.exponentNegative then -1 else 1) * natOfDigits t.exponent

def value (t : ScientificNumeral) : ℚ :=
  signed t.negative (t.coefficient * 10 ^ (t.decade - 6))

section Size

variable (t : ScientificNumeral)

theorem isDigit_cons : ∀ c ∈ t.first :: t.places, c.isDigit = true :=
  List.forall_mem_cons.2 ⟨t.first_isDigit, t.isDigit⟩

theorem pow_le_coefficient : 10 ^ 6 ≤ t.coefficient := by
  have hleast := pow_le_natOfDigits_cons t.first_isDigit t.first_ne_zero t.places
  rwa [t.length_eq] at hleast

theorem coefficient_lt : t.coefficient < 10 ^ 7 := by
  have hmost := natOfDigits_lt t.isDigit_cons
  rwa [List.length_cons, t.length_eq] at hmost

theorem magnitude_pos : (0 : ℚ) < t.coefficient * 10 ^ (t.decade - 6) := by
  have hcoefficient : 0 < t.coefficient :=
    (Nat.pow_pos (by decide)).trans_le t.pow_le_coefficient
  positivity

/-- The exponent that is written is the one of the leading digit. -/
theorem log_magnitude :
    Int.log 10 (t.coefficient * 10 ^ (t.decade - 6) : ℚ) = t.decade := by
  have hten : (10 : ℚ) ≠ 0 := by norm_num
  have hlow : (10 : ℚ) ^ (6 : ℤ) ≤ t.coefficient := by
    exact_mod_cast t.pow_le_coefficient
  have hhigh : (t.coefficient : ℚ) < 10 ^ (7 : ℤ) := by
    exact_mod_cast t.coefficient_lt
  apply le_antisymm
  · rw [← Int.lt_add_one_iff, ← Int.lt_zpow_iff_log_lt (by decide)
      t.magnitude_pos]
    calc (t.coefficient * 10 ^ (t.decade - 6) : ℚ)
        < 10 ^ (7 : ℤ) * 10 ^ (t.decade - 6) := by gcongr
      _ = 10 ^ (t.decade + 1) := by
          rw [← zpow_add₀ hten]
          congr 1
          ring
  · rw [← Int.zpow_le_iff_le_log (by decide) t.magnitude_pos]
    calc (10 : ℚ) ^ t.decade = 10 ^ (6 : ℤ) * 10 ^ (t.decade - 6) := by
          rw [← zpow_add₀ hten]
          congr 1
          ring
      _ ≤ t.coefficient * 10 ^ (t.decade - 6) := by gcongr

end Size

section Uniqueness

variable {s t : ScientificNumeral}

theorem eq_of_coefficient (h : s.coefficient = t.coefficient) :
    s.first = t.first ∧ s.places = t.places := by
  have hlength : (s.first :: s.places).length = (t.first :: t.places).length := by
    rw [List.length_cons, List.length_cons, s.length_eq, t.length_eq]
  exact List.cons.inj (eq_of_natOfDigits hlength s.isDigit_cons t.isDigit_cons h)

/-- An exponent other than zero has one sign. -/
theorem eq_of_decade (h : s.decade = t.decade) :
    s.exponentNegative = t.exponentNegative ∧ s.exponent = t.exponent := by
  have hs := s.exponent_ne_zero
  have ht := t.exponent_ne_zero
  have hsame : s.exponentNegative = t.exponentNegative ∧
      natOfDigits s.exponent = natOfDigits t.exponent := by
    rw [decade, decade] at h
    split_ifs at h <;> grind
  exact ⟨hsame.1,
    s.exponent_isWhole.eq_of_natOfDigits t.exponent_isWhole hsame.2⟩

end Uniqueness

/-- A number has one numeral with seven digits and an exponent. -/
theorem value_injective : Function.Injective value := by
  intro s t h
  obtain ⟨hmagnitude, hsign⟩ :=
    signed_inj s.magnitude_pos.le t.magnitude_pos.le h
  have hnegative := hsign s.magnitude_pos.ne'
  have hdecade : s.decade = t.decade := by
    rw [← s.log_magnitude, hmagnitude, t.log_magnitude]
  obtain ⟨hexponentNegative, hexponent⟩ := eq_of_decade hdecade
  rw [hdecade] at hmagnitude
  have hcoefficient : s.coefficient = t.coefficient := by
    exact_mod_cast mul_right_cancel₀ (by positivity) hmagnitude
  obtain ⟨hfirst, hplaces⟩ := eq_of_coefficient hcoefficient
  exact ScientificNumeral.ext hnegative hfirst hplaces hexponentNegative
    hexponent

end ScientificNumeral

end SciCalc.Report
