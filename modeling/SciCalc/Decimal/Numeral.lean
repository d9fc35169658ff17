/-!
# Numerals

Whole numbers written in decimal digits, and read back.
-/

namespace SciCalc.Decimal

/-- The digit of a number below ten. -/
def digitChar (d : Nat) : Char :=
  Char.ofNat (48 + d)

/-- The number a digit stands for. -/
def digitValue (c : Char) : Nat :=
  c.toNat - 48

/-- How many digits a whole number has; zero has one. -/
def digitCount (n : Nat) : Nat :=
  if n < 10 then 1 else digitCount (n / 10) + 1

/-- The digits of a whole number, the leading one first. -/
def digits (n : Nat) : List Char :=
  if n < 10 then [digitChar n] else digits (n / 10) ++ [digitChar (n % 10)]

/-- The whole number that a run of digits denotes; an empty run denotes zero. -/
def natOfDigits (run : List Char) : Nat :=
  run.foldl (fun n c => 10 * n + digitValue c) 0

theorem digits_ne_nil (n : Nat) : digits n ≠ [] := by
  unfold digits
  split <;> simp

theorem digitValue_digitChar {d : Nat} (hd : d < 10) :
    digitValue (digitChar d) = d := by
  have htable : ∀ d < 10, digitValue (digitChar d) = d := by decide
  exact htable d hd

theorem natOfDigits_append_singleton (run : List Char) (c : Char) :
    natOfDigits (run ++ [c]) = 10 * natOfDigits run + digitValue c := by
  simp [natOfDigits]

/-- Reading the digits of a whole number gives it back. -/
theorem natOfDigits_digits (n : Nat) : natOfDigits (digits n) = n := by
  induction n using Nat.strongRecOn with
  | ind n ih =>
    unfold digits
    split
    case isTrue hsmall => simp [natOfDigits, digitValue_digitChar hsmall]
    case isFalse hlarge =>
      rw [natOfDigits_append_singleton, ih (n / 10) (by omega),
        digitValue_digitChar (Nat.mod_lt n (by omega))]
      omega

theorem length_digits (n : Nat) : (digits n).length = digitCount n := by
  induction n using Nat.strongRecOn with
  | ind n ih =>
    unfold digits digitCount
    split
    · rfl
    · rw [List.length_append, ih (n / 10) (by omega)]
      rfl

/-- A whole number with its sign; zero has none. -/
def intDigits : Int → List Char
  | .ofNat n => digits n
  | .negSucc n => '-' :: digits (n + 1)

end SciCalc.Decimal
