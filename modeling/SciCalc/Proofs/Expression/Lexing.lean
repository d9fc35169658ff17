import SciCalc.Proofs.Expression.BracketBalance
import SciCalc.Proofs.Text.CharacterClass
import SciCalc.Proofs.Text.Trim

/-!
# Cutting texts at boundaries

A text can be cut into tokens piece by piece, as long as no cut goes through a
run of digits and points or through a run of letters. White space and brackets
are followed from the text to its tokens.
-/

namespace SciCalc

open Outcome

variable {ν : Type}

namespace Lexeme

theorem not_isBlank_of_isNumeric {c : Char} (h : isNumeric c = true) :
    Text.isBlank c = false := by
  rw [Bool.eq_false_iff]
  intro hblank
  have hdigit := Text.not_isDigit_of_isBlank hblank
  have hpoint := Text.ne_of_class hblank (show Text.isBlank '.' = false by decide)
  simp [isNumeric, hdigit, hpoint] at h

theorem not_isNumeric_of_isBlank {c : Char} (h : Text.isBlank c = true) :
    isNumeric c = false := by
  rw [Bool.eq_false_iff]
  intro hnumeric
  rw [not_isBlank_of_isNumeric hnumeric] at h
  cases h

theorem not_isNumeric_of_isAlpha {c : Char} (h : c.isAlpha = true) :
    isNumeric c = false := by
  have hdigit := Text.not_isDigit_of_isAlpha h
  have hpoint := Text.ne_of_class h (show '.'.isAlpha = false by decide)
  simp [isNumeric, hdigit, hpoint]

theorem not_isAlpha_of_isNumeric {c : Char} (h : isNumeric c = true) :
    c.isAlpha = false := by
  rw [Bool.eq_false_iff]
  intro halpha
  rw [not_isNumeric_of_isAlpha halpha] at h
  cases h

section Steps

variable [Literal ν] {p : Placed} {rest : List Placed}

theorem ofPlaced_blank (hp : Text.isBlank p.char = true) :
    ofPlaced (ν := ν) (p :: rest) = ofPlaced rest := by
  rw [ofPlaced, if_pos hp]

/-- A run of digits and points that is no number. -/
theorem ofPlaced_malformed (hp : isNumeric p.char = true)
    (hread : Literal.read? (ν := ν)
      (p.char :: (rest.takeWhile fun q => isNumeric q.char).map Placed.char) =
        none) :
    ofPlaced (ν := ν) (p :: rest) =
      .error (.here p.position (.malformedNumber (String.ofList
        (p.char ::
          (rest.takeWhile fun q => isNumeric q.char).map Placed.char)))) := by
  rw [ofPlaced, if_neg (by simp [not_isBlank_of_isNumeric hp]), if_pos hp]
  simp only [hread]

theorem ofPlaced_number {value : ν} (hp : isNumeric p.char = true)
    (hread : Literal.read?
      (p.char :: (rest.takeWhile fun q => isNumeric q.char).map Placed.char) =
        some value) :
    ofPlaced (p :: rest) =
      (ofPlaced (rest.dropWhile fun q => isNumeric q.char) >>= fun lexemes =>
        .ok (⟨.number value, p.position⟩ :: lexemes)) := by
  rw [ofPlaced, if_neg (by simp [not_isBlank_of_isNumeric hp]), if_pos hp]
  simp only [hread]
  rfl

theorem ofPlaced_identifier (hp : p.char.isAlpha = true) :
    ofPlaced (ν := ν) (p :: rest) =
      (ofPlaced (rest.dropWhile fun q => q.char.isAlpha) >>= fun lexemes =>
        .ok (⟨.identifier (String.ofList (p.char ::
          (rest.takeWhile fun q => q.char.isAlpha).map Placed.char)),
          p.position⟩ :: lexemes)) := by
  have hblank : Text.isBlank p.char = false := by
    rw [Bool.eq_false_iff]
    intro hblank
    rw [Text.not_isAlpha_of_isBlank hblank] at hp
    cases hp
  rw [ofPlaced, if_neg (by simp [hblank]),
    if_neg (by simp [not_isNumeric_of_isAlpha hp]), if_pos hp]
  rfl

theorem ofPlaced_symbol {token : Token ν} (hblank : Text.isBlank p.char = false)
    (hnumeric : isNumeric p.char = false) (halpha : p.char.isAlpha = false)
    (htoken : Token.ofChar? p.char = some token) :
    ofPlaced (p :: rest) =
      (ofPlaced rest >>= fun lexemes =>
        .ok (⟨token, p.position⟩ :: lexemes)) := by
  rw [ofPlaced, if_neg (by simp [hblank]), if_neg (by simp [hnumeric]),
    if_neg (by simp [halpha])]
  simp only [htoken]
  rfl

theorem ofPlaced_unknown (hblank : Text.isBlank p.char = false)
    (hnumeric : isNumeric p.char = false) (halpha : p.char.isAlpha = false)
    (htoken : Token.ofChar? (ν := ν) p.char = none) :
    ofPlaced (ν := ν) (p :: rest) =
      .error (.here p.position (.unknownCharacter p.char)) := by
  rw [ofPlaced, if_neg (by simp [hblank]), if_neg (by simp [hnumeric]),
    if_neg (by simp [halpha])]
  simp only [htoken]

end Steps

/-! ## Boundaries -/

/-- No run of digits and points and no run of letters goes on across the cut. -/
def Separate (before after : List Char) : Prop :=
  ∀ c ∈ before.getLast?, ∀ d ∈ after.head?,
    ¬(isNumeric c = true ∧ isNumeric d = true) ∧
      ¬(c.isAlpha = true ∧ d.isAlpha = true)

theorem Separate.of_suffix {before before' : List Placed} {after : List Char}
    (hseparate : Separate (before.map Placed.char) after)
    (hsuffix : before' <:+ before) :
    Separate (before'.map Placed.char) after := by
  intro c hc d hd
  apply hseparate c _ d hd
  obtain ⟨head, rfl⟩ := hsuffix
  rw [Option.mem_def] at hc ⊢
  rw [List.map_append, List.getLast?_append, hc]
  rfl

section Boundaries

variable {p : Placed} {rest after : List Placed}

theorem char_getLast?_of_forall {f : Char → Bool} (hp : f p.char = true)
    (hrest : ∀ q ∈ rest, f q.char = true) :
    ∃ c ∈ ((p :: rest).map Placed.char).getLast?, f c = true := by
  have hne : (p :: rest).map Placed.char ≠ [] := List.cons_ne_nil _ _
  refine ⟨_, List.getLast?_eq_getLast_of_ne_nil hne, ?_⟩
  have hall : ∀ q ∈ p :: rest, f q.char = true :=
    List.forall_mem_cons.2 ⟨hp, hrest⟩
  obtain ⟨q, hq, hchar⟩ := List.mem_map.1 (List.getLast_mem hne)
  rw [← hchar]
  exact hall q hq

/-- A run that starts in front of a cut and does not go on across it. -/
theorem run_append {f : Char → Bool} (hp : f p.char = true)
    (hcut : ∀ c ∈ ((p :: rest).map Placed.char).getLast?,
      ∀ d ∈ (after.map Placed.char).head?, ¬(f c = true ∧ f d = true)) :
    (rest ++ after).takeWhile (fun q => f q.char) =
        rest.takeWhile (fun q => f q.char) ∧
      (rest ++ after).dropWhile (fun q => f q.char) =
        rest.dropWhile (fun q => f q.char) ++ after := by
  apply Text.takeWhile_append_of_stops
  intro hrest q hq
  obtain ⟨c, hc, hclass⟩ := char_getLast?_of_forall hp hrest
  have hq' : q.char ∈ (after.map Placed.char).head? := by
    rw [List.head?_map]
    exact Option.mem_map_of_mem Placed.char hq
  rw [Bool.eq_false_iff]
  intro hclass'
  exact hcut c hc q.char hq' ⟨hclass, hclass'⟩

theorem Separate.numeric_run
    (hseparate : Separate ((p :: rest).map Placed.char)
      (after.map Placed.char))
    (hp : isNumeric p.char = true) :
    (rest ++ after).takeWhile (fun q => isNumeric q.char) =
        rest.takeWhile (fun q => isNumeric q.char) ∧
      (rest ++ after).dropWhile (fun q => isNumeric q.char) =
        rest.dropWhile (fun q => isNumeric q.char) ++ after :=
  run_append hp fun c hc d hd => (hseparate c hc d hd).1

theorem Separate.alpha_run
    (hseparate : Separate ((p :: rest).map Placed.char)
      (after.map Placed.char))
    (hp : p.char.isAlpha = true) :
    (rest ++ after).takeWhile (fun q => q.char.isAlpha) =
        rest.takeWhile (fun q => q.char.isAlpha) ∧
      (rest ++ after).dropWhile (fun q => q.char.isAlpha) =
        rest.dropWhile (fun q => q.char.isAlpha) ++ after :=
  run_append hp fun c hc d hd => (hseparate c hc d hd).2

end Boundaries

/-- Tokens in front of and behind a boundary come from the two pieces. -/
theorem ofPlaced_append [Literal ν] {before after : List Placed}
    (hseparate : Separate (before.map Placed.char) (after.map Placed.char)) :
    ofPlaced (ν := ν) (before ++ after) =
      (ofPlaced before >>= fun lexemes =>
        ofPlaced after >>= fun lexemes' => .ok (lexemes ++ lexemes')) := by
  fun_induction ofPlaced (ν := ν) before with
  | case1 => simp
  | case2 p rest hblank ih =>
      rw [List.cons_append, ofPlaced_blank hblank]
      exact ih (hseparate.of_suffix (List.suffix_cons p rest))
  | case3 p rest _ hnumeric run hread =>
      obtain ⟨htake, -⟩ := hseparate.numeric_run hnumeric
      rw [List.cons_append,
        ofPlaced_malformed hnumeric (by rw [htake]; exact hread), htake]
      rfl
  | case4 p rest _ hnumeric run value hread ih =>
      obtain ⟨htake, hdrop⟩ := hseparate.numeric_run hnumeric
      have hsuffix := (List.dropWhile_suffix fun q : Placed =>
        isNumeric q.char).trans (List.suffix_cons p rest)
      rw [List.cons_append,
        ofPlaced_number hnumeric (by rw [htake]; exact hread), hdrop,
        ih (hseparate.of_suffix hsuffix)]
      simp
  | case5 p rest _ _ halpha run ih =>
      obtain ⟨htake, hdrop⟩ := hseparate.alpha_run halpha
      have hsuffix := (List.dropWhile_suffix fun q : Placed =>
        q.char.isAlpha).trans (List.suffix_cons p rest)
      rw [List.cons_append, ofPlaced_identifier halpha, hdrop, htake,
        ih (hseparate.of_suffix hsuffix)]
      simp only [bind_assoc, pure_eq_ok, ok_bind, List.cons_append, run]
  | case6 p rest hblank hnumeric halpha htoken =>
      rw [List.cons_append, ofPlaced_unknown (by simpa using hblank)
        (by simpa using hnumeric) (by simpa using halpha) htoken]
      rfl
  | case7 p rest hblank hnumeric halpha token htoken ih =>
      rw [List.cons_append, ofPlaced_symbol (by simpa using hblank)
        (by simpa using hnumeric) (by simpa using halpha) htoken,
        ih (hseparate.of_suffix (List.suffix_cons p rest))]
      simp

/-! ## Brackets and white space -/

section Runs

open Brackets

variable {rest : List Placed} {f : Placed → Bool}

/-- A run without brackets can be dropped from the brackets of a text. -/
theorem filter_isBracket_dropWhile
    (hf : ∀ q, f q = true → isBracket q.char = false) :
    ((rest.dropWhile f).map Placed.char).filter isBracket =
      (rest.map Placed.char).filter isBracket := by
  induction rest with
  | nil => rfl
  | cons q rest ih =>
      rw [List.dropWhile_cons]
      split
      · next hq =>
        rw [ih, List.map_cons, List.filter_cons_of_neg (by simp [hf q hq])]
      · rfl

theorem not_isBracket_of_class {f : Char → Bool} {c : Char} (h : f c = true)
    (hopen : f '(' = false) (hclose : f ')' = false) : isBracket c = false := by
  have hneOpen := Text.ne_of_class h hopen
  have hneClose := Text.ne_of_class h hclose
  simp [isBracket, hneOpen, hneClose]

theorem not_isBracket_of_isNumeric {c : Char} (h : isNumeric c = true) :
    isBracket c = false :=
  not_isBracket_of_class h (by decide) (by decide)

theorem not_isBracket_of_isAlpha {c : Char} (h : c.isAlpha = true) :
    isBracket c = false :=
  not_isBracket_of_class h (by decide) (by decide)

theorem not_isBracket_of_isBlank {c : Char} (h : Text.isBlank c = true) :
    isBracket c = false :=
  not_isBracket_of_class h (by decide) (by decide)

/-- A character that is a token by itself is a bracket when the token is. -/
theorem bracket?_of_ofChar? {c : Char} {token : Token ν}
    (h : Token.ofChar? c = some token) :
    token.bracket?.toList = [c].filter isBracket := by
  unfold Token.ofChar? at h
  split at h <;> cases h <;> rfl

end Runs

/-- The tokens of a text have its brackets. -/
theorem brackets_ofPlaced [Literal ν] (placed : List Placed) :
    ∀ lexemes : List (Lexeme ν), ofPlaced placed = .ok lexemes →
      (lexemes.map Lexeme.token).filterMap Token.bracket? =
        (placed.map Placed.char).filter Brackets.isBracket := by
  fun_induction ofPlaced (ν := ν) placed with
  | case1 =>
      intro lexemes h
      cases h
      rfl
  | case2 p rest hblank ih =>
      intro lexemes h
      rw [ih lexemes h, List.map_cons, List.filter_cons_of_neg
        (by simp [not_isBracket_of_isBlank hblank])]
  | case3 =>
      intro lexemes h
      cases h
  | case4 p rest _ hnumeric run value hread ih =>
      intro lexemes h
      obtain ⟨others, hothers, hlexemes⟩ := bind_eq_ok_iff.1 h
      cases hlexemes
      rw [List.map_cons, List.filterMap_cons_none rfl, ih others hothers,
        filter_isBracket_dropWhile fun q => not_isBracket_of_isNumeric,
        List.map_cons, List.filter_cons_of_neg
          (by simp [not_isBracket_of_isNumeric hnumeric])]
  | case5 p rest _ _ halpha run ih =>
      intro lexemes h
      obtain ⟨others, hothers, hlexemes⟩ := bind_eq_ok_iff.1 h
      cases hlexemes
      rw [List.map_cons, List.filterMap_cons_none rfl, ih others hothers,
        filter_isBracket_dropWhile fun q => not_isBracket_of_isAlpha,
        List.map_cons, List.filter_cons_of_neg
          (by simp [not_isBracket_of_isAlpha halpha])]
  | case6 =>
      intro lexemes h
      cases h
  | case7 p rest _ _ _ token htoken ih =>
      intro lexemes h
      obtain ⟨others, hothers, hlexemes⟩ := bind_eq_ok_iff.1 h
      cases hlexemes
      have hbracket := bracket?_of_ofChar? htoken
      rw [List.map_cons, List.map_cons, ← List.singleton_append,
        List.filterMap_append, ih others hothers,
        ← List.singleton_append (x := p.char), List.filter_append, ← hbracket]
      cases htoken' : token.bracket? <;> simp [htoken']

theorem ofPlaced_of_isBlank [Literal ν] {placed : List Placed}
    (h : ∀ p ∈ placed, Text.isBlank p.char = true) :
    ofPlaced (ν := ν) placed = .ok [] := by
  induction placed with
  | nil => rw [ofPlaced]
  | cons p rest ih =>
      rw [List.forall_mem_cons] at h
      rw [ofPlaced_blank h.1]
      exact ih h.2

end Lexeme

namespace ImplicitProduct

theorem joins_blank {b c : Char} (h : Text.isBlank c = true) :
    joins b c = false := by
  have halpha := Text.not_isAlpha_of_isBlank h
  have hdigit := Text.not_isDigit_of_isBlank h
  have hopen := Text.ne_of_class h (show Text.isBlank '(' = false by decide)
  simp [joins, Char.isAlphanum, halpha, hdigit, hopen]

theorem joins_of_blank {b c : Char} (h : Text.isBlank b = true) :
    joins b c = false := by
  have halpha := Text.not_isAlpha_of_isBlank h
  have hdigit := Text.not_isDigit_of_isBlank h
  have hclose := Text.ne_of_class h (show Text.isBlank ')' = false by decide)
  simp [joins, halpha, hdigit, hclose]

theorem not_isBlank_of_joins {b c : Char} (h : joins b c = true) :
    Text.isBlank c = false := by
  rw [Bool.eq_false_iff]
  intro hblank
  rw [joins_blank hblank] at h
  cases h

/-- No star is placed in white space. -/
theorem isBlank_placeAfter {text : List Char}
    (h : ∀ c ∈ text, Text.isBlank c = true) (before : Option Char)
    (index : Nat) :
    ∀ p ∈ placeAfter before index text, Text.isBlank p.char = true := by
  induction text generalizing before index with
  | nil => simp [placeAfter]
  | cons c rest ih =>
      rw [List.forall_mem_cons] at h
      have htail := ih h.2 (some c) (index + 1)
      cases before with
      | none => exact List.forall_mem_cons.2 ⟨h.1, htail⟩
      | some b =>
          simp only [placeAfter, joins_blank h.1]
          exact List.forall_mem_cons.2 ⟨h.1, htail⟩

/-- Stars are no brackets. -/
theorem brackets_placeAfter (before : Option Char) (index : Nat)
    (text : List Char) :
    ((placeAfter before index text).map Placed.char).filter
        Brackets.isBracket =
      text.filter Brackets.isBracket := by
  induction text generalizing before index with
  | nil => rfl
  | cons c rest ih =>
      have htail : (c :: (placeAfter (some c) (index + 1) rest).map
          Placed.char).filter Brackets.isBracket =
            (c :: rest).filter Brackets.isBracket := by
        rw [List.filter_cons, List.filter_cons, ih]
      cases before with
      | none => exact htail
      | some b =>
          simp only [placeAfter]
          split
          · rw [List.map_cons, List.filter_cons_of_neg
              (show ¬Brackets.isBracket '*' = true by decide)]
            exact htail
          · exact htail

end ImplicitProduct

/-- The tokens of a text open and close as many brackets as the text does. -/
theorem Lexeme.openBehind_brackets [Literal ν] {text : List Char}
    {lexemes : List (Lexeme ν)} (htext : Lexeme.ofText text = .ok lexemes)
    (count : Nat) :
    Brackets.openBehind count
        ((lexemes.map Lexeme.token).filterMap Token.bracket?) =
      Brackets.openBehind count text := by
  rw [brackets_ofPlaced _ lexemes htext, ImplicitProduct.place,
    ImplicitProduct.brackets_placeAfter, Brackets.openBehind_filter]

end SciCalc
