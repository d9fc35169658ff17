import Mathlib
import SciCalc.Plot.Color
import SciCalc.Proofs.Text.CharacterClass

/-!
# Written colors

A color is written as a number sign and three pairs of hexadecimal digits, one
pair for each channel. These texts are read, each as the color it stands for.
Beyond them a plus sign is taken for a zero in front of the last digit of a
channel, and nothing else is read.
-/

namespace SciCalc

namespace Color

/-- The hexadecimal digit of a number, in either case. -/
def IsHexDigit (c : Char) (n : ℕ) : Prop :=
  "0123456789abcdef".toList[n]? = some c ∨
    "0123456789ABCDEF".toList[n]? = some c

instance (c : Char) (n : ℕ) : Decidable (IsHexDigit c n) :=
  inferInstanceAs (Decidable (_ ∨ _))

/-- What may stand first in a channel: a digit, or a plus sign for zero. -/
def IsLeading (c : Char) (n : ℕ) : Prop :=
  IsHexDigit c n ∨ c = '+' ∧ n = 0

/-- Two characters that stand for the value of a channel. -/
def IsChannel (leads : Char → ℕ → Prop) (high low : Char) (value : UInt8) :
    Prop :=
  ∃ h l, leads high h ∧ IsHexDigit low l ∧ value.toNat = 16 * h + l

/-- A number sign and the three channels of the color, with nothing behind. -/
def IsColor (leads : Char → ℕ → Prop) (text : List Char) (color : Color) :
    Prop :=
  ∃ r r' g g' b b', text = ['#', r, r', g, g', b, b'] ∧
    IsChannel leads r r' color.red ∧ IsChannel leads g g' color.green ∧
    IsChannel leads b b' color.blue

/-! ## Digits -/

theorem hexValue?_of_isHexDigit {c : Char} {n : ℕ} (h : IsHexDigit c n) :
    hexValue? c = some n := by
  have htable : ∀ table ∈ ["0123456789abcdef".toList,
      "0123456789ABCDEF".toList],
      ∀ n < table.length, table[n]?.bind hexValue? = some n := by decide
  have hread {table : List Char} (hmem : table ∈ ["0123456789abcdef".toList,
      "0123456789ABCDEF".toList]) (hc : table[n]? = some c) :
      hexValue? c = some n := by
    have hvalue := htable table hmem n (List.getElem?_eq_some_iff.1 hc).1
    rwa [hc, Option.bind_some] at hvalue
  rcases h with h | h
  · exact hread (.head _) h
  · exact hread (.tail _ (.head _)) h

/-- The three ranges of characters hold consecutive digits. -/
theorem isHexDigit_of_hexValue? {c : Char} {n : ℕ} (h : hexValue? c = some n) :
    IsHexDigit c n := by
  have hle (d e : Char) : d ≤ e ↔ d.toNat ≤ e.toNat := UInt32.le_iff_toNat_le
  have hdigits : ∀ k < 10, IsHexDigit (Char.ofNat (48 + k)) k := by decide
  have hlower : ∀ k < 6, IsHexDigit (Char.ofNat (97 + k)) (10 + k) := by decide
  have hupper : ∀ k < 6, IsHexDigit (Char.ofNat (65 + k)) (10 + k) := by decide
  unfold hexValue? at h
  split_ifs at h with hdigit hsmall hcapital <;> cases h
  · obtain ⟨hlow, hhigh⟩ := Text.isDigit_iff.1 hdigit
    have hc := hdigits (c.toNat - 48) (by omega)
    rwa [Nat.add_sub_cancel' hlow, Char.ofNat_toNat] at hc
  · rw [hle, hle] at hsmall
    obtain ⟨hlow, hhigh⟩ : 97 ≤ c.toNat ∧ c.toNat ≤ 102 := hsmall
    have hc := hlower (c.toNat - 97) (by omega)
    rw [Nat.add_sub_cancel' hlow, Char.ofNat_toNat] at hc
    convert hc using 1
    omega
  · rw [hle, hle] at hcapital
    obtain ⟨hlow, hhigh⟩ : 65 ≤ c.toNat ∧ c.toNat ≤ 70 := hcapital
    have hc := hupper (c.toNat - 65) (by omega)
    rw [Nat.add_sub_cancel' hlow, Char.ofNat_toNat] at hc
    convert hc using 1
    omega

theorem hexValue?_eq_some_iff {c : Char} {n : ℕ} :
    hexValue? c = some n ↔ IsHexDigit c n :=
  ⟨isHexDigit_of_hexValue?, hexValue?_of_isHexDigit⟩

theorem IsHexDigit.lt {c : Char} {n : ℕ} (h : IsHexDigit c n) : n < 16 := by
  rcases h with h | h <;> exact (List.getElem?_eq_some_iff.1 h).1

theorem IsHexDigit.ne_plus {c : Char} {n : ℕ} (h : IsHexDigit c n) :
    c ≠ '+' := by
  rintro rfl
  cases hexValue?_of_isHexDigit h

theorem isLeading_iff {c : Char} {n : ℕ} :
    (if c = '+' then some 0 else hexValue? c) = some n ↔ IsLeading c n := by
  by_cases hc : c = '+'
  · subst hc
    have hdigit : ¬IsHexDigit '+' n := fun h => h.ne_plus rfl
    simp [IsLeading, hdigit, eq_comm]
  · simp [IsLeading, hc, hexValue?_eq_some_iff]

theorem IsLeading.lt {c : Char} {n : ℕ} (h : IsLeading c n) : n < 16 := by
  rcases h with h | ⟨-, rfl⟩
  · exact h.lt
  · decide

/-! ## Channels -/

theorem channel?_eq_some_iff {high low : Char} {value : UInt8} :
    channel? high low = some value ↔ IsChannel IsLeading high low value := by
  have hchannel : channel? high low =
      (if high = '+' then some 0 else hexValue? high).bind fun h =>
        (hexValue? low).bind fun l => some (UInt8.ofNat (16 * h + l)) := by
    unfold channel?
    split <;> rfl
  simp only [hchannel, Option.bind_eq_some_iff, isLeading_iff,
    hexValue?_eq_some_iff, Option.some.injEq]
  constructor
  · rintro ⟨h, hh, l, hl, rfl⟩
    have hbyte : 16 * h + l < UInt8.size := by
      have := hh.lt
      have := hl.lt
      rw [UInt8.size]
      omega
    exact ⟨h, l, hh, hl, UInt8.toNat_ofNat_of_lt' hbyte⟩
  · rintro ⟨h, l, hh, hl, hvalue⟩
    exact ⟨h, hh, l, hl, by rw [← hvalue, UInt8.ofNat_toNat]⟩

theorem IsChannel.imp {leads leads' : Char → ℕ → Prop} {high low : Char}
    {value : UInt8} (h : IsChannel leads high low value)
    (hleads : ∀ n, leads high n → leads' high n) :
    IsChannel leads' high low value := by
  obtain ⟨n, l, hhigh, hlow, hvalue⟩ := h
  exact ⟨n, l, hleads n hhigh, hlow, hvalue⟩

/-! ## Colors -/

theorem ofHex?_seven_eq_some_iff {r r' g g' b b' : Char} {color : Color} :
    ofHex? ['#', r, r', g, g', b, b'] = some color ↔
      IsChannel IsLeading r r' color.red ∧
      IsChannel IsLeading g g' color.green ∧
      IsChannel IsLeading b b' color.blue := by
  simp only [ofHex?, Option.bind_eq_bind, Option.bind_eq_some_iff,
    channel?_eq_some_iff, Option.pure_def, Option.some.injEq]
  constructor
  · rintro ⟨red, hred, green, hgreen, blue, hblue, rfl⟩
    exact ⟨hred, hgreen, hblue⟩
  · rintro ⟨hred, hgreen, hblue⟩
    exact ⟨_, hred, _, hgreen, _, hblue, rfl⟩

theorem exists_of_ofHex?_eq_some {text : List Char} {color : Color}
    (h : ofHex? text = some color) :
    ∃ r r' g g' b b', text = ['#', r, r', g, g', b, b'] := by
  unfold ofHex? at h
  split at h
  · exact ⟨_, _, _, _, _, _, rfl⟩
  · cases h

theorem ofHex?_eq_some_iff {text : List Char} {color : Color} :
    ofHex? text = some color ↔ IsColor IsLeading text color := by
  constructor
  · intro h
    obtain ⟨r, r', g, g', b, b', rfl⟩ := exists_of_ofHex?_eq_some h
    exact ⟨r, r', g, g', b, b', rfl, ofHex?_seven_eq_some_iff.1 h⟩
  · rintro ⟨r, r', g, g', b, b', rfl, hchannels⟩
    exact ofHex?_seven_eq_some_iff.2 hchannels

theorem IsColor.imp {leads leads' : Char → ℕ → Prop} {text : List Char}
    {color : Color} (h : IsColor leads text color)
    (hleads : ∀ c ∈ text, ∀ n, leads c n → leads' c n) :
    IsColor leads' text color := by
  obtain ⟨r, r', g, g', b, b', rfl, hred, hgreen, hblue⟩ := h
  exact ⟨r, r', g, g', b, b', rfl, hred.imp (hleads r (by simp)),
    hgreen.imp (hleads g (by simp)), hblue.imp (hleads b (by simp))⟩

/-- Without a plus sign only digits stand first in a channel. -/
theorem isColor_leading_iff {text : List Char} {color : Color}
    (hplus : '+' ∉ text) :
    IsColor IsLeading text color ↔ IsColor IsHexDigit text color := by
  constructor
  · intro h
    refine h.imp fun c hc n hlead => hlead.resolve_right ?_
    rintro ⟨rfl, -⟩
    exact hplus hc
  · intro h
    exact h.imp fun c _ n hdigit => .inl hdigit

end Color

/-- The texts that are read are those of a color with a digit or a plus sign in
front of each channel. Among the texts without a plus sign they are exactly the
number signs with six hexadecimal digits, read as the color they stand for. -/
theorem colors_read_from_hex_digits (text : List Char) (color : Color) :
    (Color.ofHex? text = some color ↔
      Color.IsColor Color.IsLeading text color) ∧
    ('+' ∉ text → (Color.ofHex? text = some color ↔
      Color.IsColor Color.IsHexDigit text color)) := by
  refine ⟨Color.ofHex?_eq_some_iff, fun hplus => ?_⟩
  rw [Color.ofHex?_eq_some_iff, Color.isColor_leading_iff hplus]

/-- Both cases are read. -/
theorem color_read_in_both_cases :
    '+' ∉ "#1fB8Cd".toList ∧
      Color.ofHex? "#1fB8Cd".toList = some ⟨0x1F, 0xB8, 0xCD⟩ := by
  have hplus : '+' ∉ "#1fB8Cd".toList := by decide
  have hcolor : Color.IsColor Color.IsHexDigit "#1fB8Cd".toList
      ⟨0x1F, 0xB8, 0xCD⟩ :=
    ⟨'1', 'f', 'B', '8', 'C', 'd', by decide, ⟨1, 15, by decide⟩,
      ⟨11, 8, by decide⟩, ⟨12, 13, by decide⟩⟩
  exact ⟨hplus, ((colors_read_from_hex_digits _ _).2 hplus).2 hcolor⟩

/-- Plus signs are read as zeros, and the digits are too few. -/
theorem color_read_from_plus_signs :
    Color.ofHex? "#+1+2+3".toList = some ⟨1, 2, 3⟩ ∧
      ∀ color, ¬Color.IsColor Color.IsHexDigit "#+1+2+3".toList color := by
  refine ⟨by decide, ?_⟩
  rintro color ⟨r, r', g, g', b, b', htext, ⟨n, l, hdigit, -⟩, -⟩
  obtain rfl : '+' = r := (List.cons.inj (List.cons.inj htext).2).1
  exact hdigit.ne_plus rfl

end SciCalc
