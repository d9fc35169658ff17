import SciCalc.Decimal.Rounding

/-!
# The fewest digits that identify a double

Among the decimals that read back as a given double, the shortest is chosen; of the
shortest the one closest to the double; of two equally close ones the larger.
-/

namespace SciCalc.Decimal

/-- Compares `c * 10 ^ i` with `n * 2 ^ j`. -/
def compareScaled (c : Scaled) (n : Nat) (j : Int) : Ordering :=
  compare (c.coefficient * Nat.pow 10 c.exponent.toNat * Nat.pow 2 (-j).toNat)
    (n * Nat.pow 2 j.toNat * Nat.pow 10 (-c.exponent).toNat)

/-- The decimal lies between the midpoints to the two neighbouring doubles. The
midpoints themselves read back exactly when the mantissa is even. -/
def Binary.readsBack (b : Binary) (c : Scaled) : Bool :=
  let below := if b.narrowBelow then 4 * b.mantissa - 1 else 4 * b.mantissa - 2
  let above := 4 * b.mantissa + 2
  let closed := b.mantissa % 2 = 0
  let low := compareScaled c below (b.exponent - 2)
  let high := compareScaled c above (b.exponent - 2)
  (low = .gt || (closed && low = .eq)) && (high = .lt || (closed && high = .eq))

/-- The best decimal on the grid of so many digits, if one of the two neighbours of
the value reads back. -/
def Binary.onGrid (b : Binary) (leading : Int) (count : Nat) : Option Scaled :=
  let unit := leading - (count - 1 : Nat)
  let (top, bottom) := inUnits b.numerator b.denominator unit
  let floor := top / bottom
  let down : Scaled := ⟨floor, unit⟩
  let up : Scaled := ⟨floor + 1, unit⟩
  match b.readsBack down, b.readsBack up with
  | true, true => if 2 * top < (2 * floor + 1) * bottom then some down else some up
  | true, false => some down
  | false, true => some up
  | false, false => none

/-- Zeros at the end of the coefficient move into the exponent. -/
def Scaled.trim : Nat → Scaled → Scaled
  | 0, c => c
  | fuel + 1, c =>
    if c.coefficient ≠ 0 ∧ c.coefficient % 10 = 0 then
      trim fuel ⟨c.coefficient / 10, c.exponent + 1⟩
    else c

/-- The exact decimal value of a magnitude. -/
def Binary.exact (b : Binary) : Scaled :=
  ⟨b.mantissa * Nat.pow 2 b.exponent.toNat * Nat.pow 5 (-b.exponent).toNat,
    min b.exponent 0⟩

/-- The shortest decimal of a positive magnitude. Seventeen digits identify every
double; should a search up to there find nothing, the exact value is taken. -/
def Binary.shortest (b : Binary) : Scaled :=
  let leading := leadingExponent b.numerator b.denominator
  let found := (List.range 17).findSome? fun k => b.onGrid leading (k + 1)
  let chosen := found.getD b.exact
  chosen.trim (digitCount chosen.coefficient)

end SciCalc.Decimal
