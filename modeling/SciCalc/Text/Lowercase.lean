import SciCalc.Text.LetterCase

/-!
# Lower-casing

The full lower-case mapping of a text. Two letters do not map one to one: the
capital `I` with a dot becomes two characters, and a capital sigma that ends a word
becomes the final form of its small letter.
-/

namespace SciCalc.Text

/-- The lower-case form of one character by the simple mappings. -/
def lowerChar (c : Char) : Char :=
  let code := c.toNat
  let covers : Nat × Nat × Nat × Int → Bool := fun (first, last, step, _) =>
    first ≤ code && code ≤ last && (code - first) % step = 0
  match lowerRows.find? covers with
  | some (_, _, _, shift) => Char.ofNat (code + shift).toNat
  | none => c

/-- The first character that case does not pass over is a cased one. -/
def startsCased (text : List Char) : Bool :=
  match text.dropWhile fun c => inRanges caseIgnorableRanges c.toNat with
  | c :: _ => inRanges casedRanges c.toNat
  | [] => false

/-- Lowers a text; `before` is what stands in front of it, the nearest character
first. -/
def lowerAfter (before : List Char) : List Char → List Char
  | [] => []
  | c :: rest =>
    let lowered :=
      if c = 'Σ' then
        if startsCased before && !startsCased rest then ['ς'] else ['σ']
      else if c = 'İ' then ['i', Char.ofNat 0x307]
      else [lowerChar c]
    lowered ++ lowerAfter (c :: before) rest

def lower (text : List Char) : List Char :=
  lowerAfter [] text

end SciCalc.Text
