import SciCalc.Decimal.Rounding

/-!
# Reading numbers

Three written forms are read: the runs of digits and points of an expression, the
wider form of a settings value, and whole numbers that fit 64 bits.
-/

namespace SciCalc.Decimal

/-- The decimal that a run of digits and points denotes: at least one digit, at most
one point. -/
def readRun? (run : List Char) : Option Scaled :=
  let whole := run.takeWhile Char.isDigit
  match run.dropWhile Char.isDigit with
  | [] => if whole.isEmpty then none else some ⟨natOfDigits whole, 0⟩
  | '.' :: places =>
    if places.all Char.isDigit && !(whole.isEmpty && places.isEmpty) then
      some ⟨natOfDigits (whole ++ places), -(places.length : Int)⟩
    else none
  | _ => none

/-- The double nearest to a decimal. Far outside the range of doubles the answer is
known beforehand. -/
def Scaled.toFloat (c : Scaled) : Float :=
  let lead := (digitCount c.coefficient : Int) + c.exponent
  if c.coefficient = 0 ∨ lead < -330 then 0
  else if 310 < lead then 1 / 0
  else Float.ofScientific c.coefficient (decide (c.exponent < 0)) c.exponent.natAbs

/-- A sign in front, and what follows it. -/
def splitSign : List Char → Bool × List Char
  | '-' :: rest => (true, rest)
  | '+' :: rest => (false, rest)
  | text => (false, text)

/-- The whole number after an exponent mark: an optional sign and at least one digit. -/
def readExponent? (text : List Char) : Option Int :=
  let (negative, run) := splitSign text
  if run.isEmpty || !run.all Char.isDigit then none
  else if negative then some (-(natOfDigits run : Int))
  else some (natOfDigits run)

/-- A decimal with an optional exponent after `e` or `E`. -/
def readScaled? (text : List Char) : Option Scaled :=
  let isMark := fun c : Char => c = 'e' || c = 'E'
  let run := text.takeWhile (fun c => !isMark c)
  match readRun? run, text.dropWhile (fun c => !isMark c) with
  | some c, [] => some c
  | some c, _ :: rest =>
    (readExponent? rest).map fun e => ⟨c.coefficient, c.exponent + e⟩
  | none, _ => none

/-- A signed number, or one of the words `inf`, `infinity` and `nan` in any case. -/
def readFloat? (text : List Char) : Option Float :=
  let (negative, body) := splitSign text
  let word := body.map Char.toLower
  let magnitude :=
    if word = "inf".toList ∨ word = "infinity".toList then some (1 / 0)
    else if word = "nan".toList then some (0 / 0)
    else (readScaled? body).map Scaled.toFloat
  magnitude.map fun x => if negative then -x else x

/-- A whole number below `2 ^ 64`, written in digits with an optional plus sign. -/
def readWord? (text : List Char) : Option Nat :=
  let run := match text with
    | '+' :: rest => rest
    | _ => text
  if run.isEmpty || !run.all Char.isDigit then none
  else
    let n := natOfDigits run
    if n < Nat.pow 2 64 then some n else none

end SciCalc.Decimal
