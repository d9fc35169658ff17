/-!
# Implicit multiplication

`2x`, `3sin(x)`, `(x+1)(x-1)`, `x2` and `(x)y` are products. A star is placed
between the two characters that touch; every character keeps the index it has in the
text as typed.
-/

namespace SciCalc

/-- A character and its index in the text as typed. A star that was placed carries
the index of the character behind it. -/
structure Placed where
  char : Char
  position : Nat
  deriving DecidableEq, Repr

namespace ImplicitProduct

/-- Two neighbouring characters are factors of a product. Letters and digits are
those of ASCII. -/
def joins (before after : Char) : Bool :=
  (before.isDigit && (after.isAlpha || after == '(')) ||
  ((before.isAlpha || before == ')') && after.isDigit) ||
  (before == ')' && (after.isAlphanum || after == '('))

/-- Places the stars in a text whose first character has the given index and follows
`before`. -/
def placeAfter (before : Option Char) (index : Nat) : List Char → List Placed
  | [] => []
  | c :: rest =>
    let tail := ⟨c, index⟩ :: placeAfter (some c) (index + 1) rest
    match before with
    | some b => if joins b c then ⟨'*', index⟩ :: tail else tail
    | none => tail

def place (text : List Char) : List Placed :=
  placeAfter none 0 text

/-- The text with its stars. -/
def expand (text : List Char) : List Char :=
  (place text).map Placed.char

end ImplicitProduct

end SciCalc
