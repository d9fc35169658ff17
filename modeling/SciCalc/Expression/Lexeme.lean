import SciCalc.Expression.ImplicitProduct
import SciCalc.Expression.ParseError
import SciCalc.Text.Blank

/-!
# Cutting a text into tokens

White space separates tokens and is dropped. A number is a maximal run of digits and
points, an identifier a maximal run of ASCII letters, and every other token is one
character.
-/

namespace SciCalc.Lexeme

variable {ν : Type}

/-- Digits and points make numbers. -/
def isNumeric (c : Char) : Bool :=
  c.isDigit || c == '.'

/-- The tokens of a placed text, from left to right; the first offence is the error. -/
def ofPlaced [Literal ν] : List Placed → Except (ParseError ν) (List (Lexeme ν))
  | [] => .ok []
  | p :: rest =>
    if Text.isBlank p.char then
      ofPlaced rest
    else if isNumeric p.char then
      let run := p.char :: (rest.takeWhile fun q => isNumeric q.char).map Placed.char
      match Literal.read? run with
      | none => .error (.here p.position (.malformedNumber (String.ofList run)))
      | some value => do
        let lexemes ← ofPlaced (rest.dropWhile fun q => isNumeric q.char)
        return ⟨.number value, p.position⟩ :: lexemes
    else if p.char.isAlpha then
      let run := p.char :: (rest.takeWhile fun q => q.char.isAlpha).map Placed.char
      do
        let lexemes ← ofPlaced (rest.dropWhile fun q => q.char.isAlpha)
        return ⟨.identifier (String.ofList run), p.position⟩ :: lexemes
    else
      match Token.ofChar? p.char with
      | none => .error (.here p.position (.unknownCharacter p.char))
      | some token => do
        let lexemes ← ofPlaced rest
        return ⟨token, p.position⟩ :: lexemes
termination_by placed => placed.length
decreasing_by
  all_goals simp only [List.length_cons]
  all_goals first
    | exact Nat.lt_succ_self _
    | exact Nat.lt_succ_of_le (List.dropWhile_suffix _).length_le

/-- The tokens of a text in which implicit products have been made explicit. -/
def ofText [Literal ν] (text : List Char) : Except (ParseError ν) (List (Lexeme ν)) :=
  ofPlaced (ImplicitProduct.place text)

/-- The tokens of a text as it stands. -/
def ofRawText [Literal ν] (text : List Char) :
    Except (ParseError ν) (List (Lexeme ν)) :=
  ofPlaced (text.zipIdx.map fun (c, position) => ⟨c, position⟩)

end SciCalc.Lexeme
