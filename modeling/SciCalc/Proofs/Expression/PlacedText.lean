import SciCalc.Proofs.Expression.Relocation

/-!
# What parsing sees of a text

Parsing looks at the characters of a text with the stars of implicit products
between them, and at the positions that they carry. It passes positions on and
depends on none of them. White space where no run goes on leaves no trace.
-/

namespace SciCalc

open SciCalc.Outcome SciCalc.ImplicitProduct

variable {ν : Type}

/-! ## Characters with their positions -/

namespace Brackets

/-- The scan for brackets, with the positions that the characters carry. -/
def scanPlaced (unclosed : List Nat) : List Placed → Option Nat
  | [] => unclosed.head?
  | ⟨'(', position⟩ :: rest => scanPlaced (position :: unclosed) rest
  | ⟨')', position⟩ :: rest =>
    match unclosed with
    | [] => some position
    | _ :: outer => scanPlaced outer rest
  | _ :: rest => scanPlaced unclosed rest

theorem scanPlaced_of_not_isBracket {p : Placed}
    (hp : isBracket p.char = false) (opened : List Nat) (rest : List Placed) :
    scanPlaced opened (p :: rest) = scanPlaced opened rest := by
  obtain ⟨c, position⟩ := p
  simp only [isBracket, Bool.or_eq_false_iff, beq_eq_false_iff_ne] at hp
  simp [scanPlaced, hp.1, hp.2]

/-- Stars are passed over. -/
theorem scanPlaced_placeAfter (opened : List Nat) (before : Option Char)
    (index : Nat) (text : List Char) :
    scanPlaced opened (placeAfter before index text) =
      scan opened index text := by
  induction text generalizing opened before index with
  | nil => rfl
  | cons c rest ih =>
      have htail : scanPlaced opened
          (⟨c, index⟩ :: placeAfter (some c) (index + 1) rest) =
            scan opened index (c :: rest) := by
        rcases isBracket_cases c with hc | rfl | rfl
        · rw [scanPlaced_of_not_isBracket hc, scan_of_not_isBracket hc, ih]
        · exact ih _ _ _
        · cases opened with
          | nil => rfl
          | cons _ outer => exact ih outer _ _
      cases before with
      | none => exact htail
      | some b =>
          simp only [placeAfter]
          split
          · rw [scanPlaced_of_not_isBracket rfl, htail]
          · exact htail

theorem scanPlaced_relocate (f : Nat → Nat) (opened : List Nat)
    (placed : List Placed) :
    scanPlaced (opened.map f) (placed.map (Placed.relocate f)) =
      (scanPlaced opened placed).map f := by
  induction placed generalizing opened with
  | nil => exact List.head?_map
  | cons p rest ih =>
      obtain ⟨c, position⟩ := p
      rcases isBracket_cases c with hc | rfl | rfl
      · rw [List.map_cons, scanPlaced_of_not_isBracket hc, ih,
          scanPlaced_of_not_isBracket hc]
      · exact ih (position :: opened)
      · cases opened with
        | nil => rfl
        | cons _ outer => exact ih outer

/-- White space between characters is passed over. -/
theorem scanPlaced_gap {gap : List Placed}
    (hgap : ∀ p ∈ gap, Text.isBlank p.char = true) (opened : List Nat)
    (front back : List Placed) :
    scanPlaced opened (front ++ gap ++ back) =
      scanPlaced opened (front ++ back) := by
  induction front generalizing opened with
  | nil =>
      induction gap with
      | nil => rfl
      | cons p gap ih =>
          rw [List.forall_mem_cons] at hgap
          have hskip := Lexeme.not_isBracket_of_isBlank hgap.1
          exact (scanPlaced_of_not_isBracket hskip _ _).trans (ih hgap.2)
  | cons p front ih =>
      obtain ⟨c, position⟩ := p
      rcases isBracket_cases c with hc | rfl | rfl
      · have hskip :=
          scanPlaced_of_not_isBracket (p := ⟨c, position⟩) hc opened
        exact ((hskip _).trans (ih opened)).trans (hskip _).symm
      · exact ih (position :: opened)
      · cases opened with
        | nil => rfl
        | cons _ outer => exact ih outer

end Brackets

namespace Lexeme

/-- White space where no run goes on does not change the tokens. -/
theorem ofPlaced_gap [Literal ν] {front gap back : List Placed}
    (hgap : ∀ p ∈ gap, Text.isBlank p.char = true)
    (hseparate : Separate (front.map Placed.char) (back.map Placed.char)) :
    ofPlaced (ν := ν) (front ++ gap ++ back) = ofPlaced (front ++ back) := by
  have hfront : Separate (front.map Placed.char)
      ((gap ++ back).map Placed.char) := by
    cases gap with
    | nil => exact hseparate
    | cons p gap =>
        rintro c - d ⟨⟩
        have hblank := hgap p List.mem_cons_self
        simp [not_isNumeric_of_isBlank hblank,
          Text.not_isAlpha_of_isBlank hblank]
  have hback : Separate (gap.map Placed.char) (back.map Placed.char) := by
    intro c hc d _
    obtain ⟨p, hp, rfl⟩ := List.mem_map.1 (List.mem_of_getLast? hc)
    simp [not_isNumeric_of_isBlank (hgap p hp),
      Text.not_isAlpha_of_isBlank (hgap p hp)]
  rw [List.append_assoc, ofPlaced_append hfront, ofPlaced_append hback,
    ofPlaced_append hseparate, ofPlaced_of_isBlank hgap]
  simp

end Lexeme

/-! ## Parsing -/

section Parsing

variable [Literal ν]

/-- The tree of a text whose characters carry their positions and between whose
characters all stars have been placed. -/
def parsePlaced (placed : List Placed) : Except (ParseError ν) (Expr ν) :=
  if placed.all fun p => Text.isBlank p.char then .error ⟨.empty, none⟩
  else
    match Brackets.scanPlaced [] placed with
    | some position => .error (.here position .unbalanced)
    | none => Lexeme.ofPlaced placed >>= parseLexemes

/-- A star stands in front of a character that is not blank. -/
theorem ImplicitProduct.all_isBlank_placeAfter (before : Option Char)
    (index : Nat) (text : List Char) :
    ((placeAfter before index text).all fun p => Text.isBlank p.char) =
      text.all Text.isBlank := by
  induction text generalizing before index with
  | nil => rfl
  | cons c rest ih =>
      cases before with
      | none => simp only [placeAfter, List.all_cons, ih]
      | some b =>
          simp only [placeAfter]
          split
          · next hjoins =>
            simp [not_isBlank_of_joins hjoins]
          · simp only [List.all_cons, ih]

theorem parseChars_eq_parsePlaced (text : List Char) :
    parseChars (ν := ν) text = parsePlaced (place text) := by
  unfold parseChars parsePlaced
  rw [place, all_isBlank_placeAfter, Brackets.scanPlaced_placeAfter]
  cases text.all Text.isBlank with
  | true => rfl
  | false =>
      rw [Brackets.unmatched]
      cases Brackets.scan [] 0 text <;> rfl

/-- Parsing carries positions along to the error. -/
theorem parsePlaced_relocate (f : Nat → Nat) (placed : List Placed) :
    parsePlaced (ν := ν) (placed.map (Placed.relocate f)) =
      relocated f id (parsePlaced placed) := by
  have hscan := Brackets.scanPlaced_relocate f [] placed
  rw [List.map_nil] at hscan
  unfold parsePlaced
  rw [List.all_map, hscan, Lexeme.ofPlaced_relocate]
  change (if placed.all fun p => Text.isBlank p.char then _ else _) = _
  split
  · rfl
  · cases Brackets.scanPlaced [] placed with
    | some position => rfl
    | none => exact relocated_bind rfl (parseLexemes_relocate f)

/-- White space where no run goes on is not noticed. -/
theorem parsePlaced_gap {front gap back : List Placed}
    (hgap : ∀ p ∈ gap, Text.isBlank p.char = true)
    (hseparate : Lexeme.Separate (front.map Placed.char)
      (back.map Placed.char)) :
    parsePlaced (ν := ν) (front ++ gap ++ back) =
      parsePlaced (front ++ back) := by
  have hblank : gap.all (fun p => Text.isBlank p.char) = true :=
    List.all_eq_true.2 hgap
  unfold parsePlaced
  rw [Brackets.scanPlaced_gap hgap, Lexeme.ofPlaced_gap hgap hseparate]
  simp only [List.all_append, hblank, Bool.and_true]

end Parsing

end SciCalc
