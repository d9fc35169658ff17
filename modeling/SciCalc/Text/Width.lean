import SciCalc.Text.Width.EmojiSequence
import SciCalc.Text.Width.Wide

/-!
# Display width

How many columns of a terminal a text fills. Ideographs and other wide characters
fill two, nonspacing characters fill none, and every other character fills one; but
a ligature or an emoji sequence fills the columns of the one sign that it is shown
as. A text is read from its end, since the width of a character depends on what
follows it.
-/

namespace SciCalc.Text

/-- The columns that a character fills by itself. -/
def charWidth (c : Char) : Nat :=
  if c.toNat ≤ 0xA0 then 1
  else if isNonspacing c then 0
  else if isWide c || c = '\u17a4' then 2
  else if c = '\u17d8' then 3
  else 1

/-- A variation selector, which chooses the shape of the character before it. -/
inductive Selector
  | text
  | emoji
  /-- Quotation marks centered in the square of an ideograph. -/
  | square
deriving DecidableEq

def Selector.ofChar? (c : Char) : Option Selector :=
  if c = '\ufe0e' then some .text
  else if c = '\ufe0f' then some .emoji
  else if c = '\ufe01' then some .square
  else none

def isCurlyQuote (c : Char) : Bool :=
  c == '\u2018' || c == '\u2019' || c == '\u201c' || c == '\u201d'

/-- What stands at the front of a text, without a selector. -/
inductive Opening
  | plain
  /-- A letter, and whether a zero-width joiner stands before it. -/
  | letter (last : LigatureEnd) (joiner : Bool)
  | vowel (sign : KiratVowel)
  | emoji (part : EmojiPart)
deriving DecidableEq

namespace Opening

def ofLetter : Option LigatureEnd → Opening
  | some last => .letter last false
  | none => .plain

def ofVowel : Option KiratVowel → Opening
  | some sign => .vowel sign
  | none => .plain

def ofChar (c : Char) : Opening :=
  match EmojiPart.ofChar? c with
  | some part => .emoji part
  | none =>
    match KiratVowel.ofChar? c with
    | some sign => .vowel sign
    | none => ofLetter (LigatureEnd.ofChar? c)

/-- The columns that a character adds before an opening that it forms one sign with,
and the new opening. -/
def meld? (opening : Opening) (c : Char) : Option (Int × Opening) :=
  match opening with
  | .plain => none
  | .letter last joiner =>
    if c = zeroWidthJoiner then some (0, .letter last true)
    else if isInvisibleMark c then some (0, opening)
    else (last.meld? joiner c).map fun r => (r.1, ofLetter r.2)
  | .vowel sign => (sign.meld? c).map fun r => (r.1, ofVowel r.2)
  | .emoji part => (part.meld? c).map fun r => (r.1, .emoji r.2)

/-- The columns that a character adds before an opening, and the new opening. -/
def prepend (c : Char) (opening : Opening) : Int × Opening :=
  if c.toNat ≤ 0xA0 then (1, .plain) else (opening.meld? c).getD (charWidth c, ofChar c)

/-- The opening that the character before a selector sees. -/
def behindSelector (selector : Selector) (opening : Opening) : Opening :=
  match opening with
  | .letter .. => opening
  | .emoji part =>
    if selector = .emoji && part.seesThroughSelector then opening else .plain
  | _ => .plain

/-- The opening behind a selector that has no effect. -/
def withoutSelector : Opening → Opening
  | .letter last joiner => .letter last joiner
  | _ => .plain

/-- An emoji that is joined to the opening shares its columns. -/
def isJoined : Opening → Bool
  | .emoji part => part.seesThroughSelector
  | _ => false

end Opening

/-- The front of a text: all of it that bears on the width of a character before it. -/
structure Front where
  opening : Opening
  selector : Option Selector
deriving DecidableEq

namespace Front

def plain : Front :=
  ⟨.plain, none⟩

/-- The columns that a character adds before a selector that it obeys, and the new
front. -/
def style? (selector : Selector) (opening : Opening) (c : Char) :
    Option (Int × Front) :=
  match selector with
  | .emoji =>
    if hasTwoStyles c then
      some (if opening.isJoined then 0 else 2, ⟨.emoji .emoji, none⟩)
    else none
  | .text => if narrowsAsText c then some (1, plain) else none
  | .square => if isCurlyQuote c then some (2, plain) else none

/-- The columns that a character adds before an opening, and the new front. -/
def prependTo (c : Char) (opening : Opening) : Int × Front :=
  match Selector.ofChar? c with
  | some selector => (0, ⟨opening.behindSelector selector, some selector⟩)
  | none =>
    let (columns, opening) := opening.prepend c
    (columns, ⟨opening, none⟩)

/-- The columns that a character adds before a text with the given front, and the
new front. -/
def prepend (c : Char) (front : Front) : Int × Front :=
  match front.selector with
  | none => prependTo c front.opening
  | some selector =>
    (style? selector front.opening c).getD (prependTo c front.opening.withoutSelector)

end Front

/-- The columns and the front of a text. -/
def measure : List Char → Int × Front
  | [] => (0, .plain)
  | c :: text =>
    let (columns, front) := measure text
    let (added, front) := front.prepend c
    (added + columns, front)

/-- The width of a text of one line. -/
def width (text : List Char) : Nat :=
  (measure text).1.toNat

end SciCalc.Text
