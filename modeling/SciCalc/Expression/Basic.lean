import SciCalc.Decimal.Layout
import SciCalc.Decimal.Reader
import SciCalc.Expression.Elementary

/-!
# Expression trees

A tree is built from numbers, identifiers, unary minus, the five binary operators
and calls. The type of its numbers is a parameter: a calculation uses doubles, and
the same trees over another type of numbers can be read as exact formulas.
-/

namespace SciCalc

inductive BinaryOp where
  | add | sub | mul | div | pow
  deriving DecidableEq, Repr

namespace BinaryOp

def symbol : BinaryOp → String
  | add => "+"
  | sub => "-"
  | mul => "*"
  | div => "/"
  | pow => "^"

def apply : BinaryOp → Float → Float → Float
  | add, a, b => a + b
  | sub, a, b => a - b
  | mul, a, b => a * b
  | div, a, b => a / b
  | pow, a, b => Float.pow a b

end BinaryOp

/-- An expression over numbers of type `ν`. Calls keep the name and any number of
arguments; which of them have a value is for evaluation to say. -/
inductive Expr (ν : Type) where
  | number (value : ν)
  | identifier (name : String)
  | neg (operand : Expr ν)
  | binary (op : BinaryOp) (left right : Expr ν)
  | call (function : String) (arguments : List (Expr ν))

/-- Numbers that can stand in an expression: they are read from a run of digits and
points, and written. -/
class Literal (ν : Type) where
  read? : List Char → Option ν
  text : ν → String

instance : Literal Float where
  read? run := (Decimal.readRun? run).map Decimal.Scaled.toFloat
  text := Decimal.shortestPositional

/-- Adds a name to names in increasing order, unless it is one of them. -/
def insertName (name : String) : List String → List String
  | [] => [name]
  | first :: rest =>
    if name < first then name :: first :: rest
    else if name = first then first :: rest
    else first :: insertName name rest

namespace Expr

variable {ν : Type}

mutual

/-- The tree in full parentheses: `((2 * x) + sin(y))`. -/
def render [Literal ν] : Expr ν → String
  | number value => Literal.text value
  | identifier name => name
  | neg operand => "(-" ++ operand.render ++ ")"
  | binary op left right =>
    "(" ++ left.render ++ " " ++ op.symbol ++ " " ++ right.render ++ ")"
  | call function arguments =>
    function ++ "(" ++ ", ".intercalate (renderAll arguments) ++ ")"

def renderAll [Literal ν] : List (Expr ν) → List String
  | [] => []
  | e :: es => e.render :: renderAll es

end

mutual

/-- The identifiers that are not constants, as they occur from left to right. -/
def occurrences : Expr ν → List String
  | number _ => []
  | identifier name => if (constant? name).isSome then [] else [name]
  | neg operand => operand.occurrences
  | binary _ left right => left.occurrences ++ right.occurrences
  | call _ arguments => occurrencesAll arguments

def occurrencesAll : List (Expr ν) → List String
  | [] => []
  | e :: es => e.occurrences ++ occurrencesAll es

end

/-- The free variables, each once, in increasing order. -/
def freeVariables (e : Expr ν) : List String :=
  e.occurrences.foldr insertName []

mutual

/-- Equality of trees where numbers are compared by `same`. -/
def equal (same : ν → ν → Bool) : Expr ν → Expr ν → Bool
  | number a, number b => same a b
  | identifier a, identifier b => a == b
  | neg a, neg b => equal same a b
  | binary op a b, binary op' a' b' => op == op' && equal same a a' && equal same b b'
  | call f as, call f' as' => f == f' && equalAll same as as'
  | _, _ => false

def equalAll (same : ν → ν → Bool) : List (Expr ν) → List (Expr ν) → Bool
  | [], [] => true
  | a :: as, b :: bs => equal same a b && equalAll same as bs
  | _, _ => false

end

end Expr

end SciCalc
