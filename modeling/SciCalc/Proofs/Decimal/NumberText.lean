import SciCalc.Decimal.Layout
import SciCalc.Expression.Lexeme
import SciCalc.Proofs.Decimal.ExactValue

/-!
# Texts of numbers

A finite double without a minus sign is written in digits and at most a point,
so its text is one run of the kind that an expression reads as a number. Such
a run is read when it has a digit and not more than one point.
-/

namespace SciCalc.Decimal

open Lexeme

theorem isDigit_digitChar {d : Nat} (hd : d < 10) :
    (digitChar d).isDigit = true := by
  have htable : ∀ d < 10, (digitChar d).isDigit = true := by decide
  exact htable d hd

theorem isDigit_of_mem_digits (n : Nat) :
    ∀ c ∈ digits n, c.isDigit = true := by
  induction n using Nat.strongRecOn with
  | ind n ih =>
      unfold digits
      split
      case isTrue hsmall =>
        rintro c (_ | ⟨_, ⟨⟩⟩)
        exact isDigit_digitChar hsmall
      case isFalse hlarge =>
        intro c hc
        rcases List.mem_append.1 hc with hc | hc
        · exact ih (n / 10) (by omega) c hc
        · rw [List.mem_singleton.1 hc]
          exact isDigit_digitChar (Nat.mod_lt n (by decide))

theorem isNumeric_of_isDigit {c : Char} (h : c.isDigit = true) :
    isNumeric c = true := by
  simp [isNumeric, h]

theorem isNumeric_of_mem_placePoint {places : Nat} {run : List Char}
    (hrun : ∀ c ∈ run, isNumeric c = true) :
    ∀ c ∈ placePoint places run, isNumeric c = true := by
  have hpadded : ∀ c ∈ List.replicate (places + 1 - run.length) '0' ++ run,
      isNumeric c = true := by
    intro c hc
    rcases List.mem_append.1 hc with hc | hc
    · rw [List.eq_of_mem_replicate hc]
      rfl
    · exact hrun c hc
  intro c hc
  unfold placePoint at hc
  split at hc
  · exact hpadded c hc
  · rcases List.mem_append.1 hc with hc | hc
    · exact hpadded c (List.mem_of_mem_take hc)
    · rcases List.mem_cons.1 hc with rfl | hc
      · rfl
      · exact hpadded c (List.mem_of_mem_drop hc)

theorem placePoint_ne_nil (places : Nat) {run : List Char} (hrun : run ≠ []) :
    placePoint places run ≠ [] := by
  unfold placePoint
  split
  · simp [hrun]
  · simp

theorem isNumeric_of_mem_positional (c : Scaled) :
    ∀ d ∈ c.positional, isNumeric d = true := by
  have hdigits : ∀ d ∈ digits c.coefficient, isNumeric d = true :=
    fun d hd => isNumeric_of_isDigit (isDigit_of_mem_digits _ d hd)
  intro d hd
  unfold Scaled.positional at hd
  split at hd
  · rcases List.mem_append.1 hd with hd | hd
    · exact hdigits d hd
    · rw [List.eq_of_mem_replicate hd]
      rfl
  · exact isNumeric_of_mem_placePoint hdigits d hd

theorem positional_ne_nil (c : Scaled) : c.positional ≠ [] := by
  unfold Scaled.positional
  split
  · simp [digits_ne_nil]
  · exact placePoint_ne_nil _ (digits_ne_nil c.coefficient)

/-- The text of a finite double whose sign bit is clear is a run of digits and
points. -/
theorem shortestPositional_run {x : Float} (hfinite : x.isFinite = true)
    (hsign : x.toBits.toNat < 2 ^ 63) :
    (shortestPositional x).toList ≠ [] ∧
      ∀ c ∈ (shortestPositional x).toList, isNumeric c = true := by
  obtain ⟨negative, value, hvalue, hnegative⟩ := exists_reading hfinite
  rw [hnegative hsign] at hvalue
  have htext : (shortestPositional x).toList = value.shortestPositional := by
    simp [shortestPositional, textOf, hvalue, withSign]
  rw [htext]
  unfold Binary.shortestPositional
  split
  · exact ⟨List.cons_ne_nil _ _, by simp [isNumeric]⟩
  · exact ⟨positional_ne_nil _, isNumeric_of_mem_positional _⟩

/-! ## Runs that are numbers -/

/-- At least one digit and at most one point. -/
def IsNumber (run : List Char) : Prop :=
  (∃ c ∈ run, c.isDigit = true) ∧ run.count '.' ≤ 1

instance (run : List Char) : Decidable (IsNumber run) :=
  decidable_of_iff (run.any Char.isDigit = true ∧ run.count '.' ≤ 1)
    (and_congr_left fun _ => List.any_eq_true)

theorem count_point_eq_zero_iff {run : List Char}
    (hrun : ∀ c ∈ run, isNumeric c = true) :
    run.count '.' = 0 ↔ ∀ c ∈ run, c.isDigit = true := by
  rw [List.count_eq_zero]
  constructor
  · intro hpoint c hc
    have hne : c ≠ '.' := fun heq => hpoint (heq ▸ hc)
    simpa [isNumeric, hne] using hrun c hc
  · intro hdigits hpoint
    exact absurd (hdigits '.' hpoint) (by decide)

/-- The whole part of a number, and the point with the places behind it. -/
theorem isNumber_whole_append {whole places : List Char}
    (hwhole : ∀ c ∈ whole, c.isDigit = true)
    (hplaces : ∀ c ∈ places, isNumeric c = true) :
    IsNumber (whole ++ '.' :: places) ↔
      (∀ c ∈ places, c.isDigit = true) ∧ (whole = [] → places ≠ []) := by
  have hcount : whole.count '.' = 0 := List.count_eq_zero.2 fun hpoint =>
    absurd (hwhole '.' hpoint) (by decide)
  have hone : (whole ++ '.' :: places).count '.' ≤ 1 ↔
      ∀ c ∈ places, c.isDigit = true := by
    rw [← count_point_eq_zero_iff hplaces, List.count_append, hcount,
      List.count_cons_self]
    omega
  rw [IsNumber, hone, and_comm]
  refine and_congr_right fun hdigits => ?_
  constructor
  · rintro ⟨c, hc, hdigit⟩ rfl rfl
    rw [List.mem_singleton.1 hc] at hdigit
    exact absurd hdigit (by decide)
  · intro hne
    cases whole with
    | nil =>
        obtain ⟨c, hc⟩ := List.exists_mem_of_ne_nil places (hne rfl)
        exact ⟨c, List.mem_cons_of_mem _ hc, hdigits c hc⟩
    | cons c whole =>
        exact ⟨c, List.mem_cons_self, hwhole c List.mem_cons_self⟩

/-- The runs that are read are the numbers. -/
theorem isSome_readRun?_iff {run : List Char}
    (hrun : ∀ c ∈ run, isNumeric c = true) :
    (readRun? run).isSome = true ↔ IsNumber run := by
  have hwhole : ∀ c ∈ run.takeWhile Char.isDigit, c.isDigit = true :=
    fun c hc => List.mem_takeWhile_imp hc
  have htext : run.takeWhile Char.isDigit ++ run.dropWhile Char.isDigit = run :=
    List.takeWhile_append_dropWhile
  have hstop := List.head?_dropWhile_not Char.isDigit run
  unfold readRun?
  generalize run.takeWhile Char.isDigit = whole at *
  generalize run.dropWhile Char.isDigit = behind at *
  subst htext
  rw [List.forall_mem_append] at hrun
  cases behind with
  | nil =>
      have hcount := (count_point_eq_zero_iff hrun.1).2 hwhole
      cases whole with
      | nil => simp [IsNumber]
      | cons c whole => simp [IsNumber, hcount, hwhole c]
  | cons c places =>
      rw [List.forall_mem_cons] at hrun
      have hdigit : c.isDigit = false := hstop
      obtain rfl : c = '.' := by
        simpa [isNumeric, hdigit] using hrun.2.1
      rw [isNumber_whole_append hwhole hrun.2.2]
      simp [or_iff_not_imp_left]

example : IsNumber ['.', '5'] ∧ ¬IsNumber ['1', '.', '2', '.'] := by decide

end SciCalc.Decimal
