import SciCalc.Proofs.Decimal.NumberText
import SciCalc.Proofs.Text.CharacterClass

/-!
# Runs of digits

The value of a run of digits does not depend on zeros in front of it. Digits of
a whole number have no superfluous zero in front, and a point that is set in
them keeps it that way.
-/

namespace SciCalc.Decimal

/-- Digits of a whole number, without a zero in front of others. -/
structure IsWhole (run : List Char) : Prop where
  ne_nil : run ≠ []
  isDigit : ∀ c ∈ run, c.isDigit = true
  eq_zero : run.head? = some '0' → run = ['0']

theorem isDigit_of_mem_zeros (k : ℕ) :
    ∀ c ∈ List.replicate k '0', c.isDigit = true := by
  intro c hc
  rw [List.eq_of_mem_replicate hc]
  rfl

/-! ## Values -/

theorem natOfDigits_append (xs ys : List Char) :
    natOfDigits (xs ++ ys) =
      natOfDigits xs * 10 ^ ys.length + natOfDigits ys := by
  induction ys using List.reverseRecOn with
  | nil => simp [natOfDigits]
  | append_singleton ys c ih =>
      rw [← List.append_assoc, natOfDigits_append_singleton, ih,
        natOfDigits_append_singleton, List.length_append, List.length_singleton,
        pow_succ]
      ring

theorem natOfDigits_zeros (k : ℕ) : natOfDigits (List.replicate k '0') = 0 := by
  induction k with
  | zero => rfl
  | succ k ih =>
      rw [List.replicate_succ', natOfDigits_append_singleton, ih]
      rfl

theorem natOfDigits_zeros_append (k : ℕ) (run : List Char) :
    natOfDigits (List.replicate k '0' ++ run) = natOfDigits run := by
  rw [natOfDigits_append, natOfDigits_zeros, zero_mul, zero_add]

theorem natOfDigits_append_zeros (run : List Char) (k : ℕ) :
    natOfDigits (run ++ List.replicate k '0') = natOfDigits run * 10 ^ k := by
  rw [natOfDigits_append, natOfDigits_zeros, add_zero, List.length_replicate]

theorem digitChar_digitValue {c : Char} (hc : c.isDigit = true) :
    digitChar (digitValue c) = c := by
  have hrange := Text.isDigit_iff.1 hc
  rw [digitChar, digitValue, Nat.add_sub_cancel' hrange.1, Char.ofNat_toNat]

theorem digitValue_lt {c : Char} (hc : c.isDigit = true) :
    digitValue c < 10 := by
  have hrange := Text.isDigit_iff.1 hc
  rw [digitValue]
  omega

/-- Runs of the same length differ in what they denote. -/
theorem eq_of_natOfDigits {xs ys : List Char} (hlength : xs.length = ys.length)
    (hxs : ∀ c ∈ xs, c.isDigit = true) (hys : ∀ c ∈ ys, c.isDigit = true)
    (hvalue : natOfDigits xs = natOfDigits ys) : xs = ys := by
  induction xs using List.reverseRecOn generalizing ys with
  | nil => exact (List.length_eq_zero_iff.1 hlength.symm).symm
  | append_singleton xs x ih =>
      obtain rfl | ⟨ys, y, rfl⟩ := List.eq_nil_or_concat' ys
      · simp at hlength
      rw [List.length_append, List.length_append] at hlength
      rw [List.forall_mem_append, List.forall_mem_singleton] at hxs hys
      rw [natOfDigits_append_singleton, natOfDigits_append_singleton] at hvalue
      have hx := digitValue_lt hxs.2
      have hy := digitValue_lt hys.2
      have hlast : digitValue x = digitValue y := by omega
      rw [ih (Nat.add_right_cancel hlength) hxs.1 hys.1 (by omega),
        ← digitChar_digitValue hxs.2, hlast, digitChar_digitValue hys.2]

theorem natOfDigits_lt {run : List Char} (hrun : ∀ c ∈ run, c.isDigit = true) :
    natOfDigits run < 10 ^ run.length := by
  induction run using List.reverseRecOn with
  | nil => decide
  | append_singleton run last ih =>
      rw [List.forall_mem_append, List.forall_mem_singleton] at hrun
      have hfront := ih hrun.1
      have hlast := digitValue_lt hrun.2
      rw [natOfDigits_append_singleton, List.length_append,
        List.length_singleton, pow_succ]
      omega

/-- What stands in front of so many digits and these digits are both determined
by the number. -/
theorem natOfDigits_append_inj {xs xs' ys ys' : List Char}
    (hlength : ys.length = ys'.length) (hys : ∀ c ∈ ys, c.isDigit = true)
    (hys' : ∀ c ∈ ys', c.isDigit = true)
    (hvalue : natOfDigits (xs ++ ys) = natOfDigits (xs' ++ ys')) :
    natOfDigits xs = natOfDigits xs' ∧ ys = ys' := by
  rw [natOfDigits_append, natOfDigits_append, hlength] at hvalue
  have hrest := congrArg (· % 10 ^ ys'.length) hvalue
  rw [Nat.mul_add_mod_of_lt (hlength ▸ natOfDigits_lt hys),
    Nat.mul_add_mod_of_lt (natOfDigits_lt hys')] at hrest
  rw [hrest] at hvalue
  exact ⟨Nat.eq_of_mul_eq_mul_right (Nat.pow_pos (by decide))
    (Nat.add_right_cancel hvalue), eq_of_natOfDigits hlength hys hys' hrest⟩

/-- A leading digit other than zero tells how large the number is. -/
theorem pow_le_natOfDigits_cons {c : Char} (hc : c.isDigit = true)
    (hne : c ≠ '0') (run : List Char) :
    10 ^ run.length ≤ natOfDigits (c :: run) := by
  have hpos : digitValue c ≠ 0 := by
    intro hzero
    apply hne
    rw [← digitChar_digitValue hc, hzero]
    rfl
  rw [← List.singleton_append, natOfDigits_append]
  have hfirst : natOfDigits [c] = digitValue c := by simp [natOfDigits]
  rw [hfirst]
  exact (Nat.le_mul_of_pos_left _ (Nat.pos_of_ne_zero hpos)).trans
    (Nat.le_add_right _ _)

/-! ## Whole numbers -/

theorem head?_digits_ne_zero {n : ℕ} (hn : n ≠ 0) :
    (digits n).head? ≠ some '0' := by
  induction n using digits.induct with
  | case1 n hsmall =>
      rw [digits, if_pos hsmall, List.head?_singleton, ne_eq,
        Option.some.injEq]
      intro hzero
      apply hn
      rw [← digitValue_digitChar hsmall, hzero]
      rfl
  | case2 n hlarge ih =>
      rw [digits, if_neg hlarge, List.head?_append_of_ne_nil _ (digits_ne_nil _)]
      exact ih (by omega)

theorem isWhole_digits (n : ℕ) : IsWhole (digits n) where
  ne_nil := digits_ne_nil n
  isDigit := isDigit_of_mem_digits n
  eq_zero hhead := by
    by_cases hn : n = 0
    · rw [hn, digits, if_pos (by decide)]
      rfl
    · exact absurd hhead (head?_digits_ne_zero hn)

theorem isWhole_singleton {c : Char} (hc : c.isDigit = true) : IsWhole [c] where
  ne_nil := List.cons_ne_nil c []
  isDigit := by simpa using hc
  eq_zero hhead := by rw [Option.some.inj hhead]

theorem IsWhole.of_prefix {run part : List Char} (h : IsWhole run)
    (hpart : part <+: run) (hne : part ≠ []) : IsWhole part where
  ne_nil := hne
  isDigit c hc := h.isDigit c (hpart.subset hc)
  eq_zero hhead := by
    have hzero : ['0'] <+: part :=
      List.singleton_prefix_iff_head?_eq_some.2 hhead
    rw [h.eq_zero (List.singleton_prefix_iff_head?_eq_some.1
      (hzero.trans hpart))] at hpart
    exact (hzero.eq_of_length_le hpart.length_le).symm

/-- A whole number has one run of digits. -/
theorem IsWhole.eq_of_natOfDigits {xs ys : List Char} (hxs : IsWhole xs)
    (hys : IsWhole ys) (hvalue : natOfDigits xs = natOfDigits ys) : xs = ys := by
  wlog hle : xs.length ≤ ys.length generalizing xs ys
  · exact (this hys hxs hvalue.symm (le_of_not_ge hle)).symm
  obtain ⟨k, hk⟩ := Nat.exists_eq_add_of_le' hle
  have hpadded : List.replicate k '0' ++ xs = ys := by
    have hdigits := List.forall_mem_append.2
      ⟨isDigit_of_mem_zeros k, hxs.isDigit⟩
    refine Decimal.eq_of_natOfDigits ?_ hdigits hys.isDigit ?_
    · rw [List.length_append, List.length_replicate, hk]
    · rw [natOfDigits_zeros_append, hvalue]
  cases k with
  | zero => exact hpadded
  | succ k =>
      have hsingle := hys.eq_zero (by rw [← hpadded]; rfl)
      have hpos := List.length_pos_iff.2 hxs.ne_nil
      rw [hsingle, List.length_singleton] at hk
      omega

/-! ## Points -/

/-- Zeros are written in front only where there would be no digit. -/
theorem isWhole_take_padded {run : List Char} (h : IsWhole run) (places : ℕ) :
    IsWhole ((List.replicate (places + 1 - run.length) '0' ++ run).take
      ((List.replicate (places + 1 - run.length) '0' ++ run).length -
        places)) := by
  by_cases hlength : places + 1 ≤ run.length
  · rw [Nat.sub_eq_zero_of_le hlength, List.replicate_zero, List.nil_append]
    refine h.of_prefix (List.take_prefix _ _) ?_
    rw [ne_eq, List.take_eq_nil_iff, not_or]
    exact ⟨by omega, h.ne_nil⟩
  · have hpadded : (List.replicate (places + 1 - run.length) '0' ++ run).length
        - places = 1 := by
      rw [List.length_append, List.length_replicate]
      omega
    obtain ⟨k, hk⟩ : ∃ k, places + 1 - run.length = k + 1 :=
      ⟨places - run.length, by omega⟩
    rw [hpadded, hk, List.replicate_succ]
    exact isWhole_singleton (by decide)

/-- The digits of a number with a point before the last of them. -/
theorem exists_placePoint_digits {places : ℕ} (hplaces : places ≠ 0) (n : ℕ) :
    ∃ whole rest, placePoint places (digits n) = whole ++ '.' :: rest ∧
      IsWhole whole ∧ rest.length = places ∧
      (∀ c ∈ rest, c.isDigit = true) ∧ natOfDigits (whole ++ rest) = n := by
  have hwhole := isWhole_take_padded (isWhole_digits n) places
  have hvalue := natOfDigits_zeros_append (places + 1 - (digits n).length)
    (digits n)
  have hdigits := List.forall_mem_append.2
    ⟨isDigit_of_mem_zeros (places + 1 - (digits n).length),
      isDigit_of_mem_digits n⟩
  have hlength : places ≤ (List.replicate (places + 1 - (digits n).length) '0' ++
      digits n).length := by
    rw [List.length_append, List.length_replicate]
    omega
  rw [placePoint, if_neg hplaces]
  generalize List.replicate (places + 1 - (digits n).length) '0' ++ digits n =
    padded at *
  refine ⟨_, _, rfl, hwhole, ?_, fun c hc => ?_, ?_⟩
  · rw [List.length_drop]
    omega
  · exact hdigits c (List.mem_of_mem_drop hc)
  · rw [List.take_append_drop, hvalue, natOfDigits_digits]

end SciCalc.Decimal
