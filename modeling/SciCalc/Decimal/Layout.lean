import SciCalc.Decimal.Shortest

/-!
# Number texts

How the chosen digits are laid out: with an exponent, in positional notation, or
with a fixed number of places. A value that is not a number is `NaN`, the infinities
are `inf` and `-inf`, and a zero keeps its sign.
-/

namespace SciCalc.Decimal

/-- One digit, a point if more digits follow, and the exponent of the first digit:
`1.5e-7`. -/
def Scaled.scientific (c : Scaled) : List Char :=
  let run := digits c.coefficient
  let exponent := intDigits (c.exponent + ((run.length : Int) - 1))
  match run with
  | [] => []
  | [d] => d :: 'e' :: exponent
  | d :: more => d :: '.' :: (more ++ 'e' :: exponent)

/-- A run of digits with a point before the last `places` of them. There is a digit
before the point, and no point when there are no places. -/
def placePoint (places : Nat) (run : List Char) : List Char :=
  let padded := List.replicate (places + 1 - run.length) '0' ++ run
  if places = 0 then padded
  else
    padded.take (padded.length - places) ++ '.' :: padded.drop (padded.length - places)

/-- All digits in their places, without an exponent: `0.0000001`, `1000`. -/
def Scaled.positional (c : Scaled) : List Char :=
  if c.exponent ≥ 0 then digits c.coefficient ++ List.replicate c.exponent.toNat '0'
  else placePoint (-c.exponent).toNat (digits c.coefficient)

/-- A minus sign in front of the text of a negative number. -/
def withSign (negative : Bool) (text : List Char) : List Char :=
  if negative then '-' :: text else text

/-- The text of a double whose magnitude is written by `body`. -/
def textOf (body : Binary → List Char) (x : Float) : String :=
  match Reading.ofFloat x with
  | .notANumber => "NaN"
  | .infinite negative => if negative then "-inf" else "inf"
  | .finite negative b => String.ofList (withSign negative (body b))

/-- A zero written with so many significant digits. -/
def zeroScientific (count : Nat) : List Char :=
  match count with
  | 0 | 1 => ['0', 'e', '0']
  | more + 2 => '0' :: '.' :: (List.replicate (more + 1) '0' ++ ['e', '0'])

namespace Binary

def shortestScientific (b : Binary) : List Char :=
  if b.mantissa = 0 then ['0', 'e', '0'] else b.shortest.scientific

def shortestPositional (b : Binary) : List Char :=
  if b.mantissa = 0 then ['0'] else b.shortest.positional

def significant (count : Nat) (b : Binary) : List Char :=
  if b.mantissa = 0 then zeroScientific count
  else (roundToDigits count b.numerator b.denominator).scientific

def fixed (places : Nat) (b : Binary) : List Char :=
  placePoint places (digits (roundToUnit b.numerator b.denominator (-(places : Int))))

end Binary

/-- The shortest digits that read back, with an exponent: `1.5e0`, `-0e0`, `5e-324`. -/
def shortestScientific : Float → String :=
  textOf Binary.shortestScientific

/-- The shortest digits that read back, in positional notation. -/
def shortestPositional : Float → String :=
  textOf Binary.shortestPositional

/-- So many significant digits of the exact value, with an exponent:
`1.00000000000e0`. -/
def significant (count : Nat) : Float → String :=
  textOf (Binary.significant count)

/-- So many decimal places of the exact value: `-2.0000`. -/
def fixed (places : Nat) : Float → String :=
  textOf (Binary.fixed places)

end SciCalc.Decimal
