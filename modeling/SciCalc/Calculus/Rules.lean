import SciCalc.Decimal.Numeral
import SciCalc.Text.DecimalDigit

/-!
# Derivatives and antiderivatives by rule

A text without its white space is compared with a few forms: a power `x^n`, a
multiple `c*x` or `cx`, a constant, `x` itself, and the entries of a table. The
answer is again an expression in `x`. The digits of a form may be those of any
script; an exponent has to be written in the digits `0` to `9` and to fit 64 bits.
-/

namespace SciCalc

namespace Rules

open SciCalc.Text

/-- Digits, optionally a point and more digits. -/
def isNumeral (text : List Char) : Bool :=
  !(text.takeWhile isDecimalDigit).isEmpty &&
    match text.dropWhile isDecimalDigit with
    | [] => true
    | c :: places => c == '.' && !places.isEmpty && places.all isDecimalDigit

/-- The exponent of `x^n`. -/
def power? : List Char → Option (List Char)
  | 'x' :: '^' :: run =>
    if !run.isEmpty && run.all isDecimalDigit then some run else none
  | _ => none

/-- A text without the given character at its end. -/
def dropEnd? (c : Char) (text : List Char) : Option (List Char) :=
  if text.getLast? = some c then some text.dropLast else none

/-- The coefficient of `c*x` or `cx`. -/
def linear? (text : List Char) : Option (List Char) := do
  let front ← dropEnd? 'x' text
  let coefficient := (dropEnd? '*' front).getD front
  if isNumeral coefficient then some coefficient else none

def constant? (text : List Char) : Option (List Char) :=
  if isNumeral text then some text else none

def isIdentity (text : List Char) : Bool :=
  text == ['x']

/-- An exponent as a number below `2 ^ 64`. -/
def exponent? (run : List Char) : Option Nat :=
  if run.all Char.isDigit then
    let n := Decimal.natOfDigits run
    if n < Nat.pow 2 64 then some n else none
  else none

/-- Each text beside its derivative. -/
def derivatives : List (String × String) :=
  [("sin(x)", "cos(x)"),
   ("cos(x)", "-sin(x)"),
   ("tan(x)", "1/cos(x)^2"),
   ("e^x", "e^x"),
   ("exp(x)", "exp(x)"),
   ("ln(x)", "1/x"),
   ("log(x)", "1/(x*ln(10))"),
   ("1/x", "-1/x^2")]

/-- Each text beside its antiderivative without a constant of integration. -/
def antiderivatives : List (String × String) :=
  [("sin(x)", "-cos(x)"),
   ("cos(x)", "sin(x)"),
   ("tan(x)", "-ln(abs(cos(x)))"),
   ("e^x", "e^x"),
   ("exp(x)", "exp(x)"),
   ("ln(x)", "x*ln(x)-x"),
   ("log(x)", "(x*ln(x)-x)/ln(10)"),
   ("1/x", "ln(abs(x))")]

def entry? (table : List (String × String)) (text : List Char) : Option (List Char) :=
  (table.find? fun row => row.1.toList == text).map fun row => row.2.toList

/-- The derivative of `x^n`. -/
def powerDerivative : Nat → List Char
  | 0 => ['0']
  | 1 => ['1']
  | 2 => "2*x".toList
  | n + 1 => Decimal.digits (n + 1) ++ "*x^".toList ++ Decimal.digits n

/-- The antiderivative of `x^n`, if the next exponent still fits. -/
def powerAntiderivative? (n : Nat) : Option (List Char) :=
  if n + 1 < Nat.pow 2 64 then
    some ("x^".toList ++ Decimal.digits (n + 1) ++ ['/'] ++ Decimal.digits (n + 1))
  else none

/-- The derivative of a text without white space. -/
def derivativeOf? (text : List Char) : Option (List Char) :=
  match power? text with
  | some run => (exponent? run).map powerDerivative
  | none =>
    match linear? text with
    | some coefficient => some coefficient
    | none =>
      if (constant? text).isSome then some ['0']
      else if isIdentity text then some ['1']
      else entry? derivatives text

/-- The antiderivative of a text without white space. -/
def antiderivativeOf? (text : List Char) : Option (List Char) :=
  match power? text with
  | some run => (exponent? run).bind powerAntiderivative?
  | none =>
    if isIdentity text then some "x^2/2".toList
    else
      match constant? text with
      | some value => some (value ++ "*x".toList)
      | none =>
        match linear? text with
        | some coefficient => some (coefficient ++ "*x^2/2".toList)
        | none => entry? antiderivatives text

end Rules

/-- The derivative of a text, when a rule applies. -/
def derivative? (text : String) : Option String :=
  (Rules.derivativeOf? (Text.strip text.toList)).map String.ofList

/-- The antiderivative of a text, when a rule applies. -/
def antiderivative? (text : String) : Option String :=
  (Rules.antiderivativeOf? (Text.strip text.toList)).map String.ofList

/-- The derivative of a text, or the advice to work numerically. -/
def derivative (text : String) : String :=
  (derivative? text).getD "Derivative computed (use numerical methods for evaluation)"

/-- The antiderivative of a text, or the advice to work numerically. -/
def antiderivative (text : String) : String :=
  (antiderivative? text).getD "Integral computed (use numerical methods for evaluation)"

end SciCalc
