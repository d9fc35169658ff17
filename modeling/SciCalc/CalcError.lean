import SciCalc.Expression.Evaluation
import SciCalc.Expression.ParseError
import SciCalc.Mat.Error
import SciCalc.RangeError

/-!
# Errors of the calculator

Every way in which a calculation can fail. An error shows one message; the causes
beneath it are those of the parts it came from, the outermost first. A list that
is too large to be made is no error that a calculation returns: the program stops
there, with the same message.
-/

namespace SciCalc

inductive CalcError where
  | parse (cause : ParseError Float)
  | eval (cause : EvalError)
  | mat (cause : MatError Float)
  | range (cause : RangeError Float)
  /-- There is no list of so many results, and the program stops. -/
  | tooLarge

namespace CalcError

def message : CalcError → String
  | parse cause => cause.message
  | eval cause => cause.message
  | mat cause => cause.message
  | range cause => cause.message
  | tooLarge => "capacity overflow"

end CalcError

/-- A matrix error and the shape or the number that caused it. -/
def MatError.causes (e : MatError Float) : List String :=
  match e with
  | dimension cause => [e.message, cause.message]
  | singular value => [e.message, singularMessage value]

/-- The error, what caused it, what caused that. -/
def CalcError.causes (e : CalcError) : List String :=
  e.message ::
    match e with
    | parse cause => [cause.message]
    | eval cause => [cause.message]
    | mat cause => cause.causes
    | range cause => [cause.message]
    | tooLarge => []

end SciCalc
