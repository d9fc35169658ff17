import SciCalc.Proofs.Expression.Cutting
import SciCalc.Proofs.Expression.PlacedText

/-!
# White space at token boundaries

A text may be widened by white space between two characters that neither form a
product nor belong to one run. The stars in front of that place and behind it
are the same as before, and so are the tokens; those behind it stand further to
the right. So the text has the same tree, or the same error, whose position
moves when it lies behind the white space.
-/

namespace SciCalc

open SciCalc.Outcome SciCalc.ImplicitProduct SciCalc.Lexeme

variable {ν : Type}

namespace ImplicitProduct

variable {before : Option Char} {text front gap back : List Char}

/-- Behind a character that does not join to the text no star is placed. -/
theorem placeAfter_of_apart
    (happart : ∀ b ∈ before, ∀ c ∈ text.head?, joins b c = false)
    (index : Nat) : placeAfter before index text = placeAfter none index text := by
  cases before with
  | none => rfl
  | some b =>
      cases text with
      | nil => rfl
      | cons c rest =>
          have hjoins := happart b rfl c rfl
          simp [placeAfter, hjoins]

/-- Between characters that do not join a text can be cut. -/
theorem place_append_of_apart
    (happart : ∀ b ∈ front.getLast?, ∀ c ∈ back.head?, joins b c = false) :
    place (front ++ back) =
      place front ++ placeAfter none front.length back := by
  rw [place, placeAfter_append, Option.or_none, placeAfter_of_apart happart,
    Nat.zero_add]
  rfl

/-- White space is placed as it stands and moves what follows. -/
theorem place_gap (hgap : ∀ c ∈ gap, Text.isBlank c = true)
    (happart : ∀ b ∈ front.getLast?, ∀ c ∈ back.head?, joins b c = false) :
    place (front ++ gap ++ back) =
      place front ++ placeAfter none front.length gap ++
        placeAfter none (front.length + gap.length) back := by
  have hfront : place (front ++ gap) =
      place front ++ placeAfter none front.length gap := by
    apply place_append_of_apart
    intro b _ c hc
    exact joins_blank (hgap c (List.mem_of_head? hc))
  have hback : ∀ b ∈ (front ++ gap).getLast?, ∀ c ∈ back.head?,
      joins b c = false := by
    intro b hb c hc
    rw [List.getLast?_append] at hb
    cases hlast : gap.getLast? with
    | none =>
        rw [hlast] at hb
        exact happart b hb c hc
    | some d =>
        rw [hlast] at hb
        cases hb
        exact joins_of_blank (hgap b (List.mem_of_getLast? hlast))
  rw [place_append_of_apart hback, hfront, List.length_append]

/-- Stars and characters keep to the positions of the text. -/
theorem position_of_mem_placeAfter (before : Option Char) (index : Nat)
    (text : List Char) :
    ∀ q ∈ placeAfter before index text,
      index ≤ q.position ∧ q.position < index + text.length := by
  induction text generalizing before index with
  | nil => simp [placeAfter]
  | cons c rest ih =>
      have hhead : index ≤ index ∧ index < index + (c :: rest).length := by
        simp
      have htail : ∀ q ∈ (⟨c, index⟩ :: placeAfter (some c) (index + 1) rest :
          List Placed),
          index ≤ q.position ∧ q.position < index + (c :: rest).length := by
        refine List.forall_mem_cons.2 ⟨hhead, fun q hq => ?_⟩
        have hbounds := ih (some c) (index + 1) q hq
        rw [List.length_cons]
        omega
      cases before with
      | none => exact htail
      | some b =>
          simp only [placeAfter]
          split
          · exact List.forall_mem_cons.2 ⟨hhead, htail⟩
          · exact htail

/-- A star is always followed by a character. -/
theorem getLast?_placeAfter (before : Option Char) (index : Nat)
    (text : List Char) :
    ((placeAfter before index text).map Placed.char).getLast? =
      text.getLast? := by
  induction text generalizing before index with
  | nil => rfl
  | cons c rest ih =>
      have htail := ih (some c) (index + 1)
      cases before with
      | none => simp [placeAfter, List.getLast?_cons, htail]
      | some b =>
          simp only [placeAfter]
          split <;> simp [List.getLast?_cons, htail]

theorem head?_placeAfter_none (index : Nat) (text : List Char) :
    ((placeAfter none index text).map Placed.char).head? = text.head? := by
  cases text <;> rfl

end ImplicitProduct

section Widening

variable {f : Nat → Nat}

theorem map_relocate_of_forall {placed : List Placed}
    (h : ∀ p ∈ placed, f p.position = p.position) :
    placed.map (Placed.relocate f) = placed := by
  have hid : placed.map (Placed.relocate f) = placed.map id :=
    List.map_congr_left fun p hp => congrArg (Placed.mk p.char) (h p hp)
  rw [hid, List.map_id]

variable [Literal ν] {front gap back : List Char}

/-- White space between characters that keep apart moves the positions behind
it, and nothing else. -/
theorem parseChars_gap (hgap : ∀ c ∈ gap, Text.isBlank c = true)
    (happart : ∀ c ∈ front.getLast?, ∀ d ∈ back.head?, Apart c d)
    (hfront : ∀ p < front.length, f p = p)
    (hback : ∀ p, front.length ≤ p → p < front.length + back.length →
      f p = p + gap.length) :
    parseChars (ν := ν) (front ++ gap ++ back) =
      relocated f id (parseChars (front ++ back)) := by
  have hjoins : ∀ c ∈ front.getLast?, ∀ d ∈ back.head?, joins c d = false :=
    fun c hc d hd => (happart c hc d hd).1
  have hblank := isBlank_placeAfter hgap none front.length
  have hseparate : Separate ((place front).map Placed.char)
      ((placeAfter none (front.length + gap.length) back).map Placed.char) := by
    intro c hc d hd
    rw [place, getLast?_placeAfter] at hc
    rw [head?_placeAfter_none] at hd
    exact (happart c hc d hd).2
  have hplaced : (place (front ++ back)).map (Placed.relocate f) =
      place front ++ placeAfter none (front.length + gap.length) back := by
    rw [place_append_of_apart hjoins, List.map_append, placeAfter_add]
    congr 1
    · apply map_relocate_of_forall
      intro p hp
      have hbounds := position_of_mem_placeAfter none 0 front p hp
      exact hfront _ (by omega)
    · apply List.map_congr_left
      intro p hp
      have hbounds := position_of_mem_placeAfter none _ back p hp
      rw [Placed.relocate, Placed.relocate, hback _ hbounds.1 hbounds.2]
  rw [parseChars_eq_parsePlaced, place_gap hgap hjoins,
    parsePlaced_gap hblank hseparate, ← hplaced, parsePlaced_relocate,
    ← parseChars_eq_parsePlaced]

end Widening

/-- Between two characters that do not form a product and do not belong to one
run, white space changes nothing but the position of an error behind it. -/
theorem parse_insert_white_space [Literal ν] (front gap back : String)
    (hgap : ∀ c ∈ gap.toList, Text.isBlank c = true)
    (happart : ∀ c ∈ front.toList.getLast?, ∀ d ∈ back.toList.head?,
      Apart c d) :
    parse (ν := ν) (front ++ gap ++ back) =
      match parse (front ++ back) with
      | .ok e => .ok e
      | .error err => .error ⟨err.reason, err.position.map fun p =>
          if p < front.length then p else p + gap.length⟩ := by
  let shift : Nat → Nat := fun p =>
    if p < front.length then p else p + gap.length
  have hfront : ∀ p < front.toList.length, shift p = p :=
    fun p hp => if_pos hp
  have hback : ∀ p, front.toList.length ≤ p →
      p < front.toList.length + back.toList.length →
        shift p = p + gap.toList.length :=
    fun p hp _ => if_neg (Nat.not_lt.2 hp)
  have hparse := parseChars_gap (ν := ν) hgap happart hfront hback
  rw [parse, parse, String.toList_append, String.toList_append,
    String.toList_append, hparse]
  cases parseChars (ν := ν) (front.toList ++ back.toList) <;> rfl

/-- White space behind an operator: in front of an operand, in front of an error
and behind one. -/
theorem parse_insert_tab_and_newline :
    (∀ c ∈ "\t\n".toList, Text.isBlank c = true) ∧
    parse ("x^" ++ "\t\n" ++ "-y") =
      .ok (Expr.binary (ν := Float) .pow (.identifier "x")
        (.neg (.identifier "y"))) ∧
    parse (ν := Float) ("x^" ++ "\t\n" ++ "*y") =
      .error (.here 4 (.unexpected (.operator .mul))) ∧
    parse (ν := Float) ("$^" ++ "\t\n" ++ "*y") =
      .error (.here 0 (.unknownCharacter '$')) := by
  have hgap : ∀ c ∈ "\t\n".toList, Text.isBlank c = true :=
    List.all_eq_true.1 (by decide)
  have hcaret : ∀ d, Apart '^' d := fun d =>
    apart_of_left (by decide) (by decide) (by decide)
  refine ⟨hgap, ?_, ?_, ?_⟩
  · have hparse : parse ("x^" ++ "-y") = .ok (Expr.binary (ν := Float) .pow
        (.identifier "x") (.neg (.identifier "y"))) := by cbv
    rw [parse_insert_white_space "x^" "\t\n" "-y" hgap
      (by rintro c ⟨⟩ d -; exact hcaret d), hparse]
  · have hparse : parse (ν := Float) ("x^" ++ "*y") =
        .error (.here 2 (.unexpected (.operator .mul))) := by cbv
    rw [parse_insert_white_space "x^" "\t\n" "*y" hgap
      (by rintro c ⟨⟩ d -; exact hcaret d), hparse]
    rfl
  · have hparse : parse (ν := Float) ("$^" ++ "*y") =
        .error (.here 0 (.unknownCharacter '$')) := by cbv
    rw [parse_insert_white_space "$^" "\t\n" "*y" hgap
      (by rintro c ⟨⟩ d -; exact hcaret d), hparse]
    rfl

end SciCalc
