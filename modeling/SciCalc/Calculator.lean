import SciCalc.CalcError
import SciCalc.Calculus.Simpson
import SciCalc.Expression.Parser
import SciCalc.Mat.Determinant
import SciCalc.Mat.Elimination
import SciCalc.Mat.Factorisation
import SciCalc.Plot.Sampling

/-!
# The calculator

What a user asks for in texts and numbers, in one step each. All failures are errors
of one kind.
-/

namespace SciCalc.Calculator

/-- The variable of integration and of plots. -/
def standardVariable : String := "x"

def read (text : String) : Except CalcError (Expr Float) :=
  (parse text).mapError .parse

/-- The value of a text in a context. -/
def evaluate (text : String) (c : Context) : Except CalcError Float := do
  let e ← read text
  (e.evaluate c).mapError .eval

/-- An integral that failed, as an error of the calculator. -/
def ofIntegralError : IntegralError Float EvalError → CalcError
  | .integrand cause => .eval cause
  | .range cause => .range cause

/-- The integral of an expression over one of its variables. -/
def integralOf (body : Expr Float) (parameter : String) (a b : Float) (count : Nat)
    (c : Context) : Except CalcError Float :=
  let (outcome, _) := Simpson.integrate Curve.call a b count ⟨body, parameter, c⟩
  outcome.mapError ofIntegralError

/-- The integral of a text over a variable in a context. -/
def integralIn (text parameter : String) (a b : Float) (c : Context) :
    Except CalcError Float := do
  let e ← read text
  integralOf e parameter a b Simpson.standardCount c

/-- The integral over the standard variable, with angles in radians. -/
def integral (text : String) (a b : Float) : Except CalcError Float :=
  integralIn text standardVariable a b (Context.empty .radians)

/-- The series of a text over a variable in a context. -/
def sampleIn (text parameter : String) (low high : Float) (count : Nat) (c : Context) :
    Except CalcError (Series Float) := do
  let e ← read text
  let samples ← e.sample parameter low high count c
  return Series.ofSamples (String.ofList (Text.trim text.toList)) 0 samples

/-- The series over the standard variable, with angles in radians. -/
def sample (text : String) (low high : Float) (count : Nat) :
    Except CalcError (Series Float) :=
  sampleIn text standardVariable low high count (Context.empty .radians)

section Matrices

variable {R : Type} [Scalar R]

/-- The largest size for which determinants and inverses are found by cofactors. -/
def largestCofactorSize : Nat := 8

/-- By cofactors up to that size, by triangular factorisation beyond. -/
def determinant (a : Mat R) : Except (MatError R) R :=
  if a.rows ≤ largestCofactorSize then a.determinant else a.determinantLU

def inverse (a : Mat R) : Except (MatError R) (Mat R) :=
  if a.rows ≤ largestCofactorSize then a.inverse else a.inverseLU

def solve (coefficients : Mat R) (constants : List R) : Except (MatError R) (List R) :=
  coefficients.solve constants

end Matrices

end SciCalc.Calculator
