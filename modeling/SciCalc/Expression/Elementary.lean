import SciCalc.Expression.AngleMode

/-!
# Named functions and constants

The functions an expression may call, all of one argument, and the two constants
whose names no variable can take.
-/

namespace SciCalc

inductive Elementary where
  | sin | cos | tan | asin | acos | atan | sqrt | cbrt
  /-- the logarithm to base ten -/
  | log
  /-- the natural logarithm -/
  | ln
  | exp | abs
  deriving DecidableEq, Repr

namespace Elementary

def all : List Elementary :=
  [sin, cos, tan, asin, acos, atan, sqrt, cbrt, log, ln, exp, abs]

def name : Elementary → String
  | sin => "sin"
  | cos => "cos"
  | tan => "tan"
  | asin => "asin"
  | acos => "acos"
  | atan => "atan"
  | sqrt => "sqrt"
  | cbrt => "cbrt"
  | log => "log"
  | ln => "ln"
  | exp => "exp"
  | abs => "abs"

/-- The function of that name; names are lower-case. -/
def ofName? (word : String) : Option Elementary :=
  all.find? fun f => f.name == word

/-- The number of arguments a call takes. -/
def arity (_ : Elementary) : Nat := 1

/-- The functions whose value depends on the angle mode. -/
def isTrigonometric : Elementary → Bool
  | sin | cos | tan | asin | acos | atan => true
  | _ => false

def apply (mode : AngleMode) : Elementary → Float → Float
  | sin, x => (mode.toRadians x).sin
  | cos, x => (mode.toRadians x).cos
  | tan, x => (mode.toRadians x).tan
  | asin, x => mode.fromRadians x.asin
  | acos, x => mode.fromRadians x.acos
  | atan, x => mode.fromRadians x.atan
  | sqrt, x => x.sqrt
  | cbrt, x => x.cbrt
  | log, x => x.log10
  | ln, x => x.log
  | exp, x => x.exp
  | abs, x => x.abs

end Elementary

/-- The value of a named constant. -/
def constant? (word : String) : Option Float :=
  if word = "pi" then some AngleMode.pi
  else if word = "e" then some 2.71828182845904523536028747135266250
  else none

end SciCalc
