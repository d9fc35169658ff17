/-!
# Angle modes

Trigonometric functions take and give angles in degrees or in radians, as the mode says.
-/

namespace SciCalc

inductive AngleMode where
  | degrees
  | radians
  deriving DecidableEq, Repr, Inhabited

namespace AngleMode

def pi : Float := 3.14159265358979323846264338327950288

/-- The angle in radians of an argument given in this mode. -/
def toRadians : AngleMode → Float → Float
  | degrees, angle => angle * (pi / 180)
  | radians, angle => angle

/-- The result in this mode of an angle found in radians. -/
def fromRadians : AngleMode → Float → Float
  | degrees, angle => angle * 57.2957795130823208767981548141051703
  | radians, angle => angle

def toggled : AngleMode → AngleMode
  | degrees => radians
  | radians => degrees

def label : AngleMode → String
  | degrees => "DEG"
  | radians => "RAD"

/-- The mode a word names, whatever the case of its letters. -/
def ofText? (text : String) : Option AngleMode :=
  let word := text.toList.map Char.toLower
  if word = "deg".toList ∨ word = "degrees".toList then some degrees
  else if word = "rad".toList ∨ word = "radians".toList then some radians
  else none

end AngleMode

end SciCalc
