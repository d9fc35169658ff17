import SciCalc.Text.Width.Emoji
import SciCalc.Text.Width.Ligature

/-!
# Emoji sequences

Emoji that a zero-width joiner binds together, emoji with a skin tone, flags of two
regional indicators, and flags spelled by tags are each shown as one emoji of two
columns. A text is read from its end: `EmojiPart` names what stands at the front of
what was read, and `meld?` says what a character before it adds.
-/

namespace SciCalc.Text

/-- The part of an emoji sequence at the front of a text. -/
inductive EmojiPart
  /-- A finished emoji. -/
  | emoji
  /-- A skin tone. -/
  | tone
  /-- A regional indicator. -/
  | indicator
  /-- Several regional indicators. -/
  | indicators
  /-- A joiner before an emoji. -/
  | joined
  /-- The frame of a key cap, joined to an emoji. -/
  | joinedKeycap
  /-- Regional indicators joined to an emoji: an even number of them or an odd one. -/
  | joinedIndicators (even : Bool)
  /-- The end of a spelled flag that is joined to an emoji, with its last tags, all
  of them letters. -/
  | tagLetters (count : Nat)
  /-- The end of a spelled flag that is joined to an emoji, with the digits that its
  tags have here. -/
  | tagDigits (count : Nat)
deriving DecidableEq

namespace EmojiPart

def ofChar? (c : Char) : Option EmojiPart :=
  if isRegionalIndicator c then some .indicator
  else if isSkinTone c then some .tone
  else if isEmoji c then some .emoji
  else none

/-- A joiner binds what stands before it to a finished emoji. -/
def join? (c : Char) : Option (Int × EmojiPart) :=
  if c = zeroWidthJoiner then some (0, .joined) else none

def isTagLetter (c : Char) : Bool :=
  0xE0061 ≤ c.toNat && c.toNat ≤ 0xE007A

def isTagDigit (c : Char) : Bool :=
  0xE0030 ≤ c.toNat && c.toNat ≤ 0xE0039

/-- The black flag, which begins a spelled flag. -/
def isBlackFlag (c : Char) : Bool :=
  c.toNat == 0x1F3F4

/-- What stands before a joiner is part of the emoji behind it. -/
def meldJoined? (c : Char) : Option (Int × EmojiPart) :=
  if c = '\u20e3' then some (0, .joinedKeycap)
  else if c = ⟨0xE007F, by decide⟩ then some (0, .tagLetters 0)
  else
    match ofChar? c with
    | some .indicator => some (1, .joinedIndicators false)
    | some part => some (0, part)
    | none => none

/-- The columns that a character adds before a part of an emoji sequence that it
continues, and the part that then stands in front. -/
def meld? (part : EmojiPart) (c : Char) : Option (Int × EmojiPart) :=
  match part with
  | .emoji => join? c
  | .tone => if isTonable c then some (0, .emoji) else join? c
  | .indicator => if isRegionalIndicator c then some (1, .indicators) else none
  | .indicators => if isRegionalIndicator c then some (1, .indicators) else join? c
  | .joined => meldJoined? c
  | .joinedKeycap => none
  | .joinedIndicators false =>
    if isRegionalIndicator c then some (-1, .joinedIndicators true) else none
  | .joinedIndicators true =>
    if isRegionalIndicator c then some (3, .joinedIndicators false) else join? c
  | .tagLetters count =>
    if isTagLetter c && count < 6 then some (0, .tagLetters (count + 1))
    else if isTagDigit c && count ≤ 4 then some (0, .tagDigits 1)
    else if isBlackFlag c && 3 ≤ count then some (0, .emoji)
    else none
  | .tagDigits count =>
    if isTagDigit c && count < 3 then some (0, .tagDigits (count + 1))
    else if isBlackFlag c && count == 3 then some (0, .emoji)
    else none

/-- A selector before the part leaves the part in reach of what the selector styles. -/
def seesThroughSelector : EmojiPart → Bool
  | .joined => true
  | .joinedKeycap => true
  | _ => false

end EmojiPart

end SciCalc.Text
