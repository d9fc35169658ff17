import SciCalc.Proofs.Decimal.NearestEven
import SciCalc.Proofs.Report.Numerals
import SciCalc.Report.Result

/-!
# Texts of results

The text of a finite result is a numeral in one of two forms, depending on the
size of the double. The number it stands for is the exact value of the double,
rounded once, so that the text is determined by it.
-/

namespace SciCalc.Report

open Decimal

/-! ## Superfluous zeros -/

theorem dropEndWhile_append_cons {p : Char → Bool} {c : Char}
    (hc : ¬p c) (front back : List Char) :
    dropEndWhile p (front ++ c :: back) =
      front ++ c :: dropEndWhile p back := by
  induction back using List.reverseRecOn with
  | nil => exact List.rdropWhile_concat_neg p front c hc
  | append_singleton back last ih =>
      have hfront : front ++ c :: (back ++ [last]) =
          (front ++ c :: back) ++ [last] := by simp
      change List.rdropWhile p (front ++ c :: back) =
        front ++ c :: List.rdropWhile p back at ih
      change List.rdropWhile p _ = front ++ c :: List.rdropWhile p _
      rw [hfront, List.rdropWhile_concat, List.rdropWhile_concat, ih]
      split <;> simp

theorem dropPoint_append {back : List Char} (hne : back ≠ [])
    (hback : ∀ c ∈ back, c.isDigit = true) (front : List Char) :
    dropEndWhile (· == '.') (front ++ back) = front ++ back := by
  refine List.rdropWhile_eq_self_iff.2 fun _ hlast => ?_
  rw [List.getLast_append_of_ne_nil _ hne, beq_iff_eq] at hlast
  have hdigit := hback _ (List.getLast_mem hne)
  rw [hlast] at hdigit
  cases hdigit

/-- A point behind which no digit is left goes as well. -/
theorem trimDecimals_eq {whole rest : List Char} (hwhole : IsWhole whole)
    (hrest : ∀ c ∈ rest, c.isDigit = true) :
    trimDecimals (whole ++ '.' :: rest) =
      whole ++ decimals (dropEndWhile (· == '0') rest) := by
  have hkept : dropEndWhile (· == '0') rest <+: rest :=
    List.rdropWhile_prefix _ _
  rw [trimDecimals, dropEndWhile_append_cons (by decide), decimals]
  split_ifs with hnone
  · have hpoint : dropEndWhile (· == '.') (whole ++ ['.']) =
        dropEndWhile (· == '.') whole := List.rdropWhile_concat_pos _ _ _ rfl
    rw [hnone, hpoint, List.append_nil]
    exact dropPoint_append hwhole.ne_nil hwhole.isDigit []
  · have hdigits : ∀ c ∈ dropEndWhile (· == '0') rest, c.isDigit = true :=
      fun c hc => hrest c (hkept.subset hc)
    rw [List.append_cons]
    exact dropPoint_append hnone hdigits (whole ++ ['.'])

/-- What is dropped at the end are zeros, and no zero is left there. -/
theorem exists_zeros (rest : List Char) :
    (∃ k, rest = dropEndWhile (· == '0') rest ++ List.replicate k '0') ∧
      (dropEndWhile (· == '0') rest).getLast? ≠ some '0' := by
  induction rest using List.reverseRecOn with
  | nil => exact ⟨⟨0, rfl⟩, Option.some_ne_none '0' ∘ Eq.symm⟩
  | append_singleton rest last ih =>
      by_cases hlast : last = '0'
      · have hdrop : dropEndWhile (· == '0') (rest ++ [last]) =
            dropEndWhile (· == '0') rest :=
          List.rdropWhile_concat_pos _ _ _ (beq_iff_eq.2 hlast)
        obtain ⟨⟨k, hk⟩, hend⟩ := ih
        rw [hdrop]
        refine ⟨⟨k + 1, ?_⟩, hend⟩
        rw [List.replicate_succ', ← List.append_assoc, ← hk, hlast]
      · have hkeep : dropEndWhile (· == '0') (rest ++ [last]) = rest ++ [last] :=
          List.rdropWhile_concat_neg _ _ _ (mt beq_iff_eq.1 hlast)
        rw [hkeep, List.getLast?_concat, ne_eq, Option.some.injEq]
        exact ⟨⟨0, (List.append_nil _).symm⟩, hlast⟩

/-! ## Plain numerals -/

theorem decimals_eq_nil_iff {places : List Char} :
    decimals places = [] ↔ places = [] := by
  rw [decimals]
  split_ifs with hnil <;> simp [hnil]

/-- A numeral of zero has no decimals left. -/
theorem eq_zero_of_trimmed {whole places : List Char} (hwhole : IsWhole whole)
    (hplaces : ∀ c ∈ places, c.isDigit = true)
    (hlast : places.getLast? ≠ some '0')
    (hvalue : natOfDigits (whole ++ places) = 0) :
    whole = ['0'] ∧ places = [] := by
  refine PlainNumeral.eq_of_magnitude hwhole (isWhole_singleton (by decide))
    hplaces (List.forall_mem_nil _) hlast (by decide) ?_
  have hzero : natOfDigits (['0'] ++ []) = 0 := by decide
  rw [hvalue, hzero, Nat.cast_zero, zero_div, zero_div]

/-- The numeral of a whole number of units of the tenth decimal. -/
theorem exists_plainNumeral (negative : Bool) (n : ℕ) :
    ∃ t : PlainNumeral,
      t.text = (if trimDecimals (placePoint 10 (digits n)) = ['0'] then
          trimDecimals (placePoint 10 (digits n))
        else withSign negative (trimDecimals (placePoint 10 (digits n)))) ∧
      t.value = signed negative (n / 10 ^ 10) := by
  obtain ⟨whole, rest, htext, hwhole, hlength, hrest, hn⟩ :=
    exists_placePoint_digits (by decide : 10 ≠ 0) n
  obtain ⟨⟨k, hzeros⟩, hlast⟩ := exists_zeros rest
  rw [htext, trimDecimals_eq hwhole hrest]
  generalize dropEndWhile (· == '0') rest = kept at *
  subst hzeros
  rw [List.forall_mem_append] at hrest
  rw [List.length_append, List.length_replicate] at hlength
  rw [← List.append_assoc, natOfDigits_append_zeros] at hn
  have hvalue : (natOfDigits (whole ++ kept) / 10 ^ kept.length : ℚ) =
      n / 10 ^ 10 := by
    have hpower : (10 : ℚ) ^ 10 = 10 ^ kept.length * 10 ^ k := by
      rw [← pow_add, hlength]
    rw [← hn, hpower]
    push_cast
    rw [mul_div_mul_right _ _ (by positivity)]
  by_cases hzero : natOfDigits (whole ++ kept) = 0
  · obtain ⟨rfl, rfl⟩ := eq_zero_of_trimmed hwhole hrest.1 hlast hzero
    have hnone : (natOfDigits (['0'] ++ []) : ℚ) = 0 := Nat.cast_eq_zero.2 hzero
    rw [← hvalue, hnone, zero_div, signed_zero]
    refine ⟨⟨false, ['0'], [], hwhole, hrest.1, by decide, hlast, by decide⟩,
      rfl, ?_⟩
    rw [PlainNumeral.value, hnone, zero_div, signed_zero]
  · have hbody : whole ++ decimals kept ≠ ['0'] := by
      rw [ne_eq, List.append_eq_singleton_iff, decimals_eq_nil_iff]
      rintro (⟨hnil, -⟩ | ⟨rfl, rfl⟩)
      · exact hwhole.ne_nil hnil
      · exact hzero rfl
    refine ⟨⟨negative, whole, kept, hwhole, hrest.1, by omega, hlast,
      fun _ => hzero⟩, (if_neg hbody).symm, ?_⟩
    rw [PlainNumeral.value, hvalue]

/-- Ten decimals are the nearest multiple of the tenth power of a tenth. -/
theorem exists_plain (negative : Bool) (b : Binary) :
    ∃ t : PlainNumeral, t.text = plain negative b ∧
      IsRounded (signed negative b.value) (-10) t.value := by
  obtain ⟨t, htext, hvalue⟩ := exists_plainNumeral negative
    (roundToUnit b.numerator b.denominator (-(10 : ℕ)))
  refine ⟨t, htext, ?_⟩
  have hnearest : IsNearest (b.value / 10 ^ (-(10 : ℕ) : ℤ))
      (roundToUnit b.numerator b.denominator (-(10 : ℕ)) : ℕ) := by
    rw [← b.numerator_div_denominator]
    exact isNearest_roundToUnit b.denominator_pos _
  rw [hvalue]
  refine IsRounded.signed ⟨_, hnearest, ?_⟩ negative
  rw [zpow_neg, div_eq_mul_inv]
  rfl

/-! ## Numerals with an exponent -/

theorem signExponent_append {front : List Char} (hfront : 'e' ∉ front)
    (back : List Char) :
    signExponent (front ++ back) = front ++ signExponent back := by
  induction front with
  | nil => rfl
  | cons c front ih =>
      rw [List.mem_cons, not_or] at hfront
      have hc : c ≠ 'e' := Ne.symm hfront.1
      rw [List.cons_append, signExponent.eq_4 _ _ (fun _ h => absurd h hc) hc,
        ih hfront.2, List.cons_append]

/-- An exponent other than zero is written with its sign. -/
theorem exists_signExponent {k : ℤ} (hk : k ≠ 0) :
    ∃ (minus : Bool) (run : List Char), signExponent ('e' :: intDigits k) =
        'e' :: (if minus then '-' else '+') :: run ∧
      IsWhole run ∧ natOfDigits run ≠ 0 ∧
      (if minus then -1 else 1) * (natOfDigits run : ℤ) = k := by
  cases k with
  | negSucc n =>
      refine ⟨true, digits (n + 1), rfl, isWhole_digits _, ?_, ?_⟩
      · rw [natOfDigits_digits]
        exact Nat.succ_ne_zero n
      · rw [natOfDigits_digits, if_pos rfl, neg_one_mul]
        rfl
  | ofNat n =>
      have hdigits (rest : List Char) : digits n ≠ '-' :: rest := by
        intro hminus
        have hdigit := isDigit_of_mem_digits n '-' (by simp [hminus])
        cases hdigit
      refine ⟨false, digits n, ?_, isWhole_digits _, ?_, ?_⟩
      · rw [intDigits, signExponent.eq_3 _ hdigits]
        rfl
      · rw [natOfDigits_digits]
        exact mt (congrArg Int.ofNat) hk
      · rw [natOfDigits_digits, if_neg Bool.false_ne_true, one_mul]
        rfl

/-- The numeral of seven digits and an exponent other than zero. -/
theorem exists_scientificNumeral (negative : Bool) {c : Scaled}
    (hlow : 10 ^ 6 ≤ c.coefficient) (hhigh : c.coefficient < 10 ^ 7)
    (hexponent : c.exponent + 6 ≠ 0) :
    ∃ t : ScientificNumeral,
      t.text = withSign negative (signExponent c.scientific) ∧
      t.value = signed negative (c.coefficient * 10 ^ c.exponent) := by
  have hlength : (digits c.coefficient).length = 7 := by
    rw [length_digits, digitCount_eq_log,
      (Nat.log_eq_iff (.inl (by decide))).2 ⟨hlow, hhigh⟩]
  have hdigits := isDigit_of_mem_digits c.coefficient
  have hfirst := head?_digits_ne_zero (by omega : c.coefficient ≠ 0)
  have hvalue := natOfDigits_digits c.coefficient
  obtain ⟨minus, exponent, hsigned, hwhole, hnonzero, hdecade⟩ :=
    exists_signExponent hexponent
  rw [Scaled.scientific]
  generalize digits c.coefficient = run at *
  match run with
  | [] => cases hlength
  | [d] => cases hlength
  | first :: second :: more =>
      rw [List.length_cons] at hlength
      rw [List.head?_cons, ne_eq, Option.some.injEq] at hfirst
      rw [List.forall_mem_cons] at hdigits
      have hk : c.exponent + ((first :: second :: more).length - 1 : ℤ) =
          c.exponent + 6 := by
        rw [List.length_cons, hlength]
        rfl
      have hmark : 'e' ∉ first :: '.' :: second :: more := by
        rw [List.mem_cons, List.mem_cons]
        rintro (rfl | hpoint | hmore)
        · cases hdigits.1
        · cases hpoint
        · cases hdigits.2 'e' hmore
      refine ⟨⟨negative, first, second :: more, minus, exponent, hdigits.1,
        hfirst, hdigits.2, Nat.succ.inj hlength, hwhole, hnonzero⟩, ?_, ?_⟩
      · change _ = withSign negative (signExponent ((first :: '.' :: second ::
          more) ++ 'e' :: intDigits _))
        rw [hk, signExponent_append hmark, hsigned]
        rfl
      · rw [ScientificNumeral.value, ScientificNumeral.coefficient, hvalue,
          ScientificNumeral.decade, hdecade, add_sub_cancel_right]

/-- Seven significant digits are those of the nearest multiple of the unit that
stands six places behind the leading digit. -/
theorem exists_scientific (negative : Bool) {b : Binary}
    (hnonzero : b.mantissa ≠ 0) (hlog : Int.log 10 b.value ≠ 0)
    (hlog' : Int.log 10 b.value + 1 ≠ 0) :
    ∃ t : ScientificNumeral,
      t.text = withSign negative (signExponent (b.significant 7)) ∧
      IsRounded (signed negative b.value) (Int.log 10 b.value - 6)
        t.value := by
  have hnum : 0 < b.numerator :=
    Nat.mul_pos (Nat.pos_of_ne_zero hnonzero) (Nat.two_pow_pos _)
  obtain ⟨hlow, hhigh, hexponent, hrounded⟩ :=
    roundToDigits_spec hnum b.denominator_pos 6
  rw [b.numerator_div_denominator] at hexponent hrounded
  obtain ⟨t, htext, hvalue⟩ := exists_scientificNumeral negative hlow hhigh
    (by omega)
  refine ⟨t, ?_, ?_⟩
  · rw [htext, Binary.significant, if_neg hnonzero]
  · rw [hvalue]
    exact hrounded.signed negative

/-! ## Ordinary sizes -/

/-- Zero, or of a magnitude between the doubles nearest to `1 / 10 ^ 6` and to
`10 ^ 10`. -/
def IsOrdinary (x : ℚ) : Prop :=
  x = 0 ∨ exactValue 1e-6 ≤ |x| ∧ |x| ≤ exactValue 1e10

theorem exactValue_smallest : exactValue 1e-6 = smallestPlain.value := by
  have hreading : Reading.ofFloat 1e-6 = .finite false smallestPlain := by
    decide +kernel
  exact exactValue_of_reading hreading

theorem exactValue_largest : exactValue 1e10 = largestPlain.value := by
  have hreading : Reading.ofFloat 1e10 =
      .finite false ⟨10 ^ 10 * 2 ^ 19, -19, false⟩ := by
    decide +kernel
  rw [exactValue_of_reading hreading]
  norm_num [signed, Binary.value, largestPlain]

theorem needsExponent_iff (negative : Bool) (b : Binary) :
    needsExponent b = true ↔ ¬IsOrdinary (signed negative b.value) := by
  have hzero : signed negative b.value = 0 ↔ b.value = 0 := by
    rw [← abs_eq_zero, abs_signed, abs_eq_zero]
  rw [IsOrdinary, hzero, abs_signed, abs_of_nonneg b.value_nonneg,
    exactValue_smallest, exactValue_largest, needsExponent, Bool.or_eq_true,
    Bool.and_eq_true, Binary.less_iff, Binary.less_iff, bne_iff_ne, ne_eq,
    ← b.value_eq_zero_iff]
  have hpositive : 0 ≤ largestPlain.value := largestPlain.value_nonneg
  grind

/-- The leading digit then stands far from the place of the units. -/
theorem log_of_needsExponent {b : Binary} (h : needsExponent b = true) :
    b.mantissa ≠ 0 ∧ Int.log 10 b.value ≠ 0 ∧ Int.log 10 b.value + 1 ≠ 0 := by
  rw [needsExponent, Bool.or_eq_true, Bool.and_eq_true, Binary.less_iff,
    Binary.less_iff, bne_iff_ne, ne_eq, ← b.value_eq_zero_iff] at h
  rw [ne_eq, ← b.value_eq_zero_iff]
  rcases h with hlarge | ⟨hsmall, hnonzero⟩
  · have hbound : (10 : ℚ) ^ (10 : ℤ) ≤ b.value := by
      refine le_of_eq_of_le ?_ hlarge.le
      norm_num [Binary.value, largestPlain]
    have hpos : 0 < b.value := lt_of_lt_of_le (by positivity) hbound
    have hlog : 10 ≤ Int.log 10 b.value :=
      (Int.zpow_le_iff_le_log (by decide) hpos).1 (by exact_mod_cast hbound)
    exact ⟨hpos.ne', by omega, by omega⟩
  · have hbound : b.value < (10 : ℚ) ^ (-6 : ℤ) := by
      refine hsmall.trans ?_
      norm_num [Binary.value, smallestPlain]
    have hpos : 0 < b.value := lt_of_le_of_ne b.value_nonneg (Ne.symm hnonzero)
    have hlog : Int.log 10 b.value < -6 :=
      (Int.lt_zpow_iff_log_lt (by decide) hpos).1 (by exact_mod_cast hbound)
    exact ⟨hnonzero, by omega, by omega⟩

/-- A finite result of ordinary size is written as the only numeral with at most
ten decimals that stands for the exact value, correctly rounded to the tenth
decimal. Any other finite result is written as the only numeral with an exponent
that stands for the exact value, correctly rounded to seven significant
digits. -/
theorem result_is_rounded_numeral (r : Float) (hfinite : r.isFinite = true) :
    (IsOrdinary (exactValue r) → ∃ t : PlainNumeral,
      (result r).toList = t.text ∧
      ∀ u : PlainNumeral, IsRounded (exactValue r) (-10) u.value ↔ u = t) ∧
    (¬IsOrdinary (exactValue r) → ∃ t : ScientificNumeral,
      (result r).toList = t.text ∧
      ∀ u : ScientificNumeral,
        IsRounded (exactValue r) (Int.log 10 |exactValue r| - 6) u.value ↔
          u = t) := by
  obtain ⟨negative, b, hreading, -⟩ := exists_reading hfinite
  have htext : (result r).toList =
      if needsExponent b then withSign negative (signExponent (b.significant 7))
      else plain negative b := by
    rw [result, hreading, String.toList_ofList]
  rw [exactValue_of_reading hreading, abs_signed, abs_of_nonneg b.value_nonneg,
    htext]
  constructor
  · intro hordinary
    have hplain : ¬needsExponent b = true :=
      fun h => (needsExponent_iff negative b).1 h hordinary
    rw [if_neg hplain]
    obtain ⟨t, htext, hrounded⟩ := exists_plain negative b
    exact ⟨t, htext.symm, hrounded.iff_eq PlainNumeral.value_injective⟩
  · intro hordinary
    have hneeds := (needsExponent_iff negative b).2 hordinary
    obtain ⟨hnonzero, hlog, hlog'⟩ := log_of_needsExponent hneeds
    rw [if_pos hneeds]
    obtain ⟨t, htext, hrounded⟩ :=
      exists_scientific negative hnonzero hlog hlog'
    exact ⟨t, htext.symm, hrounded.iff_eq ScientificNumeral.value_injective⟩

/-- Two values whose digits all carry, the second one half-way between two
numerals. -/
theorem results_that_carry :
    (0.99999999996 : Float).isFinite = true ∧
      IsOrdinary (exactValue 0.99999999996) ∧
      (∃ t : PlainNumeral, "1".toList = t.text ∧
        ∀ u : PlainNumeral,
          IsRounded (exactValue 0.99999999996) (-10) u.value ↔ u = t) ∧
      (-99999995000 : Float).isFinite = true ∧
      ¬IsOrdinary (exactValue (-99999995000)) ∧
      ∃ t : ScientificNumeral, "-1.000000e+11".toList = t.text ∧
        ∀ u : ScientificNumeral, IsRounded (exactValue (-99999995000))
          (Int.log 10 |exactValue (-99999995000)| - 6) u.value ↔ u = t := by
  have hplain : Reading.ofFloat 0.99999999996 =
      .finite false ⟨9007199254380704, -53, false⟩ := by decide +kernel
  have hlarge : Reading.ofFloat (-99999995000) =
      .finite true ⟨6553599672320000, -16, false⟩ := by decide +kernel
  have hfinite : (0.99999999996 : Float).isFinite = true := by decide +kernel
  have hfinite' : (-99999995000 : Float).isFinite = true := by decide +kernel
  have hordinary : IsOrdinary (exactValue 0.99999999996) := by
    rw [exactValue_of_reading hplain]
    exact not_not.1 (mt (needsExponent_iff _ _).2 (by decide +kernel))
  have hextreme : ¬IsOrdinary (exactValue (-99999995000)) := by
    rw [exactValue_of_reading hlarge]
    exact (needsExponent_iff _ _).1 (by decide +kernel)
  have htext : result 0.99999999996 = "1" := by decide +kernel
  have htext' : result (-99999995000) = "-1.000000e+11" := by decide +kernel
  refine ⟨hfinite, hordinary, ?_, hfinite', hextreme, ?_⟩
  · rw [← htext]
    exact (result_is_rounded_numeral _ hfinite).1 hordinary
  · rw [← htext']
    exact (result_is_rounded_numeral _ hfinite').2 hextreme

example : result (-0.0) = "0" := by decide +kernel

end SciCalc.Report
