/-!
# Finite doubles as exact numbers

A finite double is a sign, a whole number and a power of two. Everything the
calculator prints is chosen from these exact values by arithmetic on whole numbers.
-/

namespace SciCalc.Decimal

/-- The magnitude `mantissa * 2 ^ exponent` of a finite double. -/
structure Binary where
  mantissa : Nat
  exponent : Int
  /-- The value below is half as far away as the value above: the mantissa is the
  least of its binade. -/
  narrowBelow : Bool
  deriving DecidableEq, Repr

/-- A double is not a number, infinite, or a signed magnitude. -/
inductive Reading where
  | notANumber
  | infinite (negative : Bool)
  | finite (negative : Bool) (value : Binary)
  deriving DecidableEq, Repr

namespace Reading

/-- Splits the 64 bits into sign, exponent and fraction. A zero exponent field has
no hidden bit. -/
def ofBits (bits : Nat) : Reading :=
  let negative : Bool := bits / Nat.pow 2 63 % 2 = 1
  let field : Nat := bits / Nat.pow 2 52 % Nat.pow 2 11
  let fraction : Nat := bits % Nat.pow 2 52
  if field = Nat.pow 2 11 - 1 then
    if fraction = 0 then infinite negative else notANumber
  else if field = 0 then
    finite negative ⟨fraction, -1074, false⟩
  else
    finite negative
      ⟨Nat.pow 2 52 + fraction, (field : Int) - 1075, decide (fraction = 0 ∧ 1 < field)⟩

def ofFloat (x : Float) : Reading :=
  ofBits x.toBits.toNat

end Reading

namespace Binary

/-- The magnitude is `numerator / denominator`, one of them a whole power of two
away from the mantissa. -/
def numerator (b : Binary) : Nat :=
  b.mantissa * Nat.pow 2 b.exponent.toNat

def denominator (b : Binary) : Nat :=
  Nat.pow 2 (-b.exponent).toNat

/-- One magnitude is less than another. -/
def less (a b : Binary) : Bool :=
  decide (a.numerator * b.denominator < b.numerator * a.denominator)

theorem denominator_pos (b : Binary) : 0 < b.denominator :=
  Nat.two_pow_pos _

end Binary

end SciCalc.Decimal
