/-!
# Colors

Colors written `#RRGGBB`, two hexadecimal digits for each channel. A plus sign may
stand in the place of the first digit of a channel.
-/

namespace SciCalc

structure Color where
  red : UInt8
  green : UInt8
  blue : UInt8
  deriving DecidableEq, Repr

namespace Color

/-- The value of a hexadecimal digit in either case. -/
def hexValue? (c : Char) : Option Nat :=
  if c.isDigit then some (c.toNat - 48)
  else if 'a' ≤ c ∧ c ≤ 'f' then some (c.toNat - 87)
  else if 'A' ≤ c ∧ c ≤ 'F' then some (c.toNat - 55)
  else none

/-- The channel written by two characters. -/
def channel? (high low : Char) : Option UInt8 := do
  let h ← if high = '+' then some 0 else hexValue? high
  let l ← hexValue? low
  return UInt8.ofNat (16 * h + l)

def ofHex? : List Char → Option Color
  | ['#', r, r', g, g', b, b'] => do
    let red ← channel? r r'
    let green ← channel? g g'
    let blue ← channel? b b'
    return ⟨red, green, blue⟩
  | _ => none

end Color

end SciCalc
