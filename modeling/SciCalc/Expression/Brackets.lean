/-!
# Brackets

The first bracket of a text that has no partner.
-/

namespace SciCalc.Brackets

/-- Scans a text whose first character has the given index; `unclosed` holds the
indices of the brackets that are open, the innermost first. -/
def scan (unclosed : List Nat) (index : Nat) : List Char → Option Nat
  | [] => unclosed.head?
  | '(' :: rest => scan (index :: unclosed) (index + 1) rest
  | ')' :: rest =>
    match unclosed with
    | [] => some index
    | _ :: outer => scan outer (index + 1) rest
  | _ :: rest => scan unclosed (index + 1) rest

/-- The index of a closing bracket that closes nothing, or else of the innermost
bracket left open. -/
def unmatched (text : List Char) : Option Nat :=
  scan [] 0 text

def balanced (text : List Char) : Bool :=
  (unmatched text).isNone

end SciCalc.Brackets
