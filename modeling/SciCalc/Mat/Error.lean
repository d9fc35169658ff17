import SciCalc.Decimal.Layout

/-!
# Matrix errors

An operation on matrices fails because shapes do not fit, or because a pivot or a
determinant is too small.
-/

namespace SciCalc

/-- The operations that check shapes. -/
inductive MatOperation where
  | zeros | ofRows | ofRowMajor | ofColumnMajor | set | add | subtract | multiply
  | minor | determinant | inverse | solve
  deriving DecidableEq, Repr

def MatOperation.label : MatOperation → String
  | zeros => "zeros"
  | ofRows => "from_rows"
  | ofRowMajor => "from_row_slice"
  | ofColumnMajor => "from_dmatrix"
  | set => "set"
  | add => "add"
  | subtract => "subtract"
  | multiply => "multiply"
  | minor => "minor"
  | determinant => "determinant"
  | inverse => "inverse"
  | solve => "solve"

/-- How a shape fails to fit. -/
inductive DimensionMismatch where
  /-- The requested shape has no rows or no columns. -/
  | emptyShape (operation : MatOperation) (rows cols : Nat)
  /-- A row is not as long as the first one. -/
  | raggedRow (cols length row : Nat)
  | valueCount (expected got : Nat)
  | outsideIndex (rows cols i j : Nat)
  | unequalShapes (operation : MatOperation) (rows cols rows' cols' : Nat)
  /-- The left operand has `cols` columns, the right one `rows` rows. -/
  | innerSizes (cols rows : Nat)
  /-- There is no minor at `(row, col)`. -/
  | noMinor (rows cols row col : Nat)
  | notSquare (operation : MatOperation) (rows cols : Nat)
  | constantCount (expected got : Nat)
  /-- A mismatch given in words. -/
  | stated (operation : MatOperation) (expected got : String)
  deriving DecidableEq, Repr

namespace DimensionMismatch

/-- A shape as it is written in messages. -/
def shapeText (rows cols : Nat) : String :=
  toString rows ++ "x" ++ toString cols

def operation : DimensionMismatch → MatOperation
  | emptyShape op _ _ => op
  | raggedRow _ _ _ => .ofRows
  | valueCount _ _ => .ofRowMajor
  | outsideIndex _ _ _ _ => .set
  | unequalShapes op _ _ _ _ => op
  | innerSizes _ _ => .multiply
  | noMinor _ _ _ _ => .minor
  | notSquare op _ _ => op
  | constantCount _ _ => .solve
  | stated op _ _ => op

def expected : DimensionMismatch → String
  | emptyShape _ _ _ => "at least 1x1"
  | raggedRow cols _ _ => toString cols ++ " columns in every row"
  | valueCount count _ => toString count ++ " values"
  | outsideIndex rows cols _ _ => "index inside " ++ shapeText rows cols
  | unequalShapes _ rows cols _ _ => shapeText rows cols
  | innerSizes cols _ => toString cols ++ " rows in the right operand"
  | noMinor _ _ _ _ => "at least 2x2 and an index inside it"
  | notSquare .solve _ _ => "square coefficient matrix"
  | notSquare _ _ _ => "square matrix"
  | constantCount count _ => toString count ++ " constants"
  | stated _ text _ => text

def got : DimensionMismatch → String
  | emptyShape _ rows cols => shapeText rows cols
  | raggedRow _ length row => toString length ++ " columns in row " ++ toString row
  | valueCount _ count => toString count ++ " values"
  | outsideIndex _ _ i j => "(" ++ toString i ++ ", " ++ toString j ++ ")"
  | unequalShapes _ _ _ rows cols => shapeText rows cols
  | innerSizes _ rows => toString rows ++ " rows"
  | noMinor rows cols row col =>
    shapeText rows cols ++ " at (" ++ toString row ++ ", " ++ toString col ++ ")"
  | notSquare _ rows cols => shapeText rows cols
  | constantCount _ count => toString count ++ " constants"
  | stated _ _ text => text

def message (e : DimensionMismatch) : String :=
  "dimension mismatch in " ++ e.operation.label ++ ": expected " ++ e.expected ++
    ", got " ++ e.got

end DimensionMismatch

/-- A shape that does not fit, or the pivot or determinant that is too small. -/
inductive MatError (R : Type) where
  | dimension (cause : DimensionMismatch)
  | singular (pivotOrDeterminant : R)
  deriving DecidableEq, Repr

/-- The text for a singular matrix of doubles. -/
def singularMessage (pivotOrDeterminant : Float) : String :=
  "matrix is singular (|pivot or determinant| = " ++
    Decimal.shortestScientific pivotOrDeterminant.abs ++ " is below tolerance)"

def MatError.message : MatError Float → String
  | dimension cause => cause.message
  | singular value => singularMessage value

end SciCalc
