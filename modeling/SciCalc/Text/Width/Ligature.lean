import SciCalc.Text.Width.Nonspacing

/-!
# Ligatures

Some letters are written as one sign with the characters before them, so that a text
has fewer columns than its letters. A text is read from its end: `LigatureEnd` names
the letter that stands at the front of what was read, and `meld?` says what a
character before it adds.
-/

namespace SciCalc.Text

def zeroWidthJoiner : Char :=
  '\u200d'

/-- Invisible characters that do not part the letters of a ligature. -/
def invisibleMarkRanges : List (Nat × Nat) :=
  [(0x34F, 0x34F), (0x17B4, 0x17B5), (0x180B, 0x180D), (0x180F, 0x180F),
   (0xFE00, 0xFE0F), (0xE0100, 0xE01EF)]

def isInvisibleMark (c : Char) : Bool :=
  inRanges invisibleMarkRanges c.toNat

/-- The letters of the group of lam. -/
def isLam (c : Char) : Bool :=
  inRanges [(0x644, 0x644), (0x6B5, 0x6B8), (0x76A, 0x76A), (0x8A6, 0x8A6),
    (0x8C7, 0x8C7)] c.toNat

/-- The letters of the group of alef. -/
def isAlef (c : Char) : Bool :=
  inRanges [(0x622, 0x623), (0x625, 0x625), (0x627, 0x627), (0x671, 0x673),
    (0x675, 0x675), (0x773, 0x774), (0x870, 0x882)] c.toNat

/-- Khmer letters that have a form below another letter. -/
def hasCoengForm (c : Char) : Bool :=
  inRanges [(0x1780, 0x1782), (0x1784, 0x1787), (0x1789, 0x178C), (0x178E, 0x1793),
    (0x1795, 0x1798), (0x179B, 0x179D), (0x17A0, 0x17A0), (0x17A2, 0x17A2),
    (0x17A7, 0x17A7), (0x17AB, 0x17AC), (0x17AF, 0x17AF)] c.toNat

def isTifinagh (c : Char) : Bool :=
  inRanges [(0x2D31, 0x2D65), (0x2D6F, 0x2D6F)] c.toNat

/-- Tone letters of Lisu that begin a pair. -/
def isFirstTone (c : Char) : Bool :=
  '\ua4f8' ≤ c && c ≤ '\ua4fb'

/-- Tone letters of Lisu that end a pair. -/
def isSecondTone (c : Char) : Bool :=
  c == '\ua4fc' || c == '\ua4fd'

/-- The letter at the front of a text that the characters before it may join. -/
inductive LigatureEnd
  | alef
  | lamed
  /-- A Khmer letter that has a form below another letter. -/
  | coengLetter
  /-- Buginese ya. -/
  | ya
  /-- Buginese ya, with the vowel sign i joined to it. -/
  | vowelYa
  | tifinagh
  /-- A Tifinagh letter with the consonant joiner before it. -/
  | joinedTifinagh
  /-- A Lisu tone letter that ends a pair. -/
  | secondTone
  /-- The Old Turkic letter i of Orkhon. -/
  | orkhonI
deriving DecidableEq

namespace LigatureEnd

def ofChar? (c : Char) : Option LigatureEnd :=
  if isAlef c then some .alef
  else if c = '\u05dc' then some .lamed
  else if hasCoengForm c then some .coengLetter
  else if c = '\u1a10' then some .ya
  else if isTifinagh c then some .tifinagh
  else if isSecondTone c then some .secondTone
  else if c = ⟨0x10C03, by decide⟩ then some .orkhonI
  else none

/-- The columns that a character adds before a letter it joins, and the letter that
then stands in front. The joiner tells whether a zero-width joiner stands between
the two. -/
def meld? (last : LigatureEnd) (joiner : Bool) (c : Char) :
    Option (Int × Option LigatureEnd) :=
  match last, joiner with
  | .alef, false =>
    if isLam c then some (0, none)
    else if isTransparent c then some (0, some .alef)
    else none
  | .lamed, true => if c = '\u05d0' then some (0, none) else none
  | .coengLetter, _ => if c = '\u17d2' then some (-1, none) else none
  | .ya, true => if c = '\u1a17' then some (0, some .vowelYa) else none
  | .vowelYa, _ => if c = '\u1a15' then some (0, none) else none
  | .tifinagh, joined =>
    if c = '\u2d7f' then some (1, some .joinedTifinagh)
    else if joined && isTifinagh c then some (0, none)
    else none
  | .joinedTifinagh, _ => if isTifinagh c then some (-1, none) else none
  | .secondTone, _ => if isFirstTone c then some (0, none) else none
  | .orkhonI, true => if c = ⟨0x10C32, by decide⟩ then some (0, none) else none
  | _, _ => none

end LigatureEnd

/-- A vowel sign of Kirat Rai at the front of a text. -/
inductive KiratVowel
  | e
  | ai
deriving DecidableEq

namespace KiratVowel

def ofChar? (c : Char) : Option KiratVowel :=
  if c = ⟨0x16D67, by decide⟩ then some .e
  else if c = ⟨0x16D68, by decide⟩ then some .ai
  else none

/-- Vowel signs side by side are one sign where a single character means the same. -/
def meld? (sign : KiratVowel) (c : Char) : Option (Int × Option KiratVowel) :=
  match sign, c.toNat with
  | .e, 0x16D63 => some (0, none)
  | .e, 0x16D67 => some (0, some .ai)
  | .e, 0x16D68 => some (1, some .e)
  | .e, 0x16D69 => some (0, none)
  | .ai, 0x16D63 => some (0, none)
  | _, _ => none

end KiratVowel

end SciCalc.Text
