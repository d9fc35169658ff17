import SciCalc.Decimal.Layout

/-!
# Results as text

A result of ordinary size is written with at most ten decimals and without zeros at
its end. A very large or very small one has seven significant digits and an exponent
that shows its sign.
-/

namespace SciCalc.Report

open SciCalc.Decimal

/-- Characters without those at the end that satisfy a condition. -/
def dropEndWhile (p : Char → Bool) (text : List Char) : List Char :=
  (text.reverse.dropWhile p).reverse

/-- The zeros at the end of a text with a point, and a point that no decimals
follow, are left out. -/
def trimDecimals (text : List Char) : List Char :=
  dropEndWhile (· == '.') (dropEndWhile (· == '0') text)

/-- Ten decimals at most. What is rounded to zero has no sign. -/
def plain (negative : Bool) (b : Binary) : List Char :=
  let body := trimDecimals (b.fixed 10)
  if body = ['0'] then body else withSign negative body

/-- An exponent without a sign gets a plus. -/
def signExponent : List Char → List Char
  | [] => []
  | 'e' :: '-' :: rest => 'e' :: '-' :: rest
  | 'e' :: rest => 'e' :: '+' :: rest
  | c :: rest => c :: signExponent rest

/-- The number `10 ^ 10`; beyond it results are written with an exponent. -/
def largestPlain : Binary := ⟨Nat.pow 10 10, 0, false⟩

/-- The double nearest to `1 / 10 ^ 6`; nonzero results below it are written with an
exponent. -/
def smallestPlain : Binary := ⟨4722366482869645, -72, false⟩

def needsExponent (b : Binary) : Bool :=
  largestPlain.less b || (b.less smallestPlain && b.mantissa != 0)

/-- The text of a result. -/
def result (value : Float) : String :=
  match Reading.ofFloat value with
  | .notANumber => "NaN"
  | .infinite negative => if negative then "-Infinity" else "Infinity"
  | .finite negative b =>
    String.ofList
      (if needsExponent b then withSign negative (signExponent (b.significant 7))
       else plain negative b)

/-- A determinant with four decimals. -/
def determinant (value : Float) : String :=
  fixed 4 value

/-- The names of the first unknowns; the others are numbered. -/
def unknownName (index : Nat) : String :=
  ["x", "y", "z", "w", "v"].getD index ("x" ++ toString (index + 1))

def unknownNames (count : Nat) : List String :=
  (List.range count).map unknownName

/-- A line `name = value` for every unknown, with six decimals. -/
def solution (values : List Float) : List String :=
  List.zipWith (fun name value => name ++ " = " ++ fixed 6 value)
    (unknownNames values.length) values

end SciCalc.Report
