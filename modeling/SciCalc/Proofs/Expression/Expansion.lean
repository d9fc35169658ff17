import SciCalc.Proofs.Expression.TokenBoundary

/-!
# Texts with their stars

A star is placed in front of a character that is a factor with the one before
it, and shares its position. So the text as typed can be had back from the text
with its stars, no star calls for another one, and parsing the text with its
stars gives what parsing the text gives: an error in the one stands where the
character that it blames in the other has come from.
-/

namespace SciCalc

open SciCalc.Outcome SciCalc.ImplicitProduct

variable {ν : Type}

namespace ImplicitProduct

/-! ## Which stars there are -/

/-- The star in front of the character at an index, if it is a factor with the
character before it. -/
def starBefore (text : List Char) : Nat → List Placed
  | 0 => []
  | i + 1 =>
    match text[i]?, text[i + 1]? with
    | some b, some c => if joins b c then [⟨'*', i + 1⟩] else []
    | _, _ => []

theorem placeAfter_cons (front : List Char) (c : Char) (rest : List Char) :
    placeAfter front.getLast? front.length (c :: rest) =
      starBefore (front ++ c :: rest) front.length ++
        ⟨c, front.length⟩ :: placeAfter (some c) (front.length + 1) rest := by
  rcases front.eq_nil_or_concat with rfl | ⟨init, b, rfl⟩
  · rfl
  · have hb : (init ++ [b] ++ c :: rest)[init.length]? = some b := by simp
    have hc : (init ++ [b] ++ c :: rest)[init.length + 1]? = some c := by simp
    rw [List.concat_eq_append, List.getLast?_concat, List.length_append,
      List.length_singleton, starBefore, hb, hc]
    simp only [placeAfter]
    split <;> rfl

/-- The induction is on the text behind a front that is known. -/
theorem placeAfter_eq_flatMap (front text : List Char) :
    placeAfter front.getLast? front.length text =
      (text.zipIdx front.length).flatMap fun (c, i) =>
        starBefore (front ++ text) i ++ [⟨c, i⟩] := by
  induction text generalizing front with
  | nil => rfl
  | cons c rest ih =>
      have hrest := ih (front ++ [c])
      rw [List.getLast?_concat, List.length_append, List.length_singleton,
        List.append_assoc, List.singleton_append] at hrest
      rw [placeAfter_cons, hrest, List.zipIdx_cons, List.flatMap_cons,
        List.append_assoc]
      rfl

theorem place_eq_flatMap (text : List Char) :
    place text = text.zipIdx.flatMap fun (c, i) =>
      starBefore text i ++ [⟨c, i⟩] :=
  placeAfter_eq_flatMap [] text

example : place "2x".toList = [⟨'2', 0⟩, ⟨'*', 1⟩, ⟨'x', 1⟩] := by decide

/-! ## Taking the stars out -/

/-- A star is dropped when the next character has the same position. -/
def withoutStars : List Placed → List Placed
  | p :: q :: rest =>
    if p.char = '*' ∧ p.position = q.position then withoutStars (q :: rest)
    else p :: withoutStars (q :: rest)
  | placed => placed

theorem withoutStars_cons {p : Placed} {rest : List Placed}
    (h : ∀ q ∈ rest, p.position < q.position) :
    withoutStars (p :: rest) = p :: withoutStars rest := by
  cases rest with
  | nil => rfl
  | cons q rest =>
      have hstays : ¬(p.char = '*' ∧ p.position = q.position) :=
        fun hstar => (h q List.mem_cons_self).ne hstar.2
      rw [withoutStars, if_neg hstays]

theorem withoutStars_placeAfter (before : Option Char) (index : Nat)
    (text : List Char) :
    withoutStars (placeAfter before index text) = placeTyped index text := by
  induction text generalizing before index with
  | nil => rfl
  | cons c rest ih =>
      have htail : withoutStars
          (⟨c, index⟩ :: placeAfter (some c) (index + 1) rest) =
            placeTyped index (c :: rest) := by
        rw [withoutStars_cons, ih, placeTyped_cons]
        intro q hq
        exact (position_of_mem_placeAfter _ _ _ q hq).1
      cases before with
      | none => exact htail
      | some b =>
          simp only [placeAfter]
          split
          · rw [withoutStars, if_pos ⟨rfl, rfl⟩, htail]
          · exact htail

/-! ## No star calls for another one -/

theorem joins_star (b : Char) : joins b '*' = false :=
  (Lexeme.apart_of_right (by decide) (by decide) (by decide)).1

theorem star_joins (c : Char) : joins '*' c = false :=
  (Lexeme.apart_of_left (by decide) (by decide) (by decide)).1

theorem quiet_placeAfter (before : Option Char) (index : Nat)
    (text : List Char) :
    Quiet (before.toList ++ (placeAfter before index text).map Placed.char) := by
  induction text generalizing before index with
  | nil => cases before <;> simp [Quiet, placeAfter]
  | cons c rest ih =>
      have htail : Quiet (c :: (placeAfter (some c) (index + 1) rest).map
          Placed.char) := ih (some c) (index + 1)
      cases before with
      | none => exact htail
      | some b =>
          simp only [placeAfter]
          split
          · exact List.isChain_cons_cons.2 ⟨joins_star b,
              List.isChain_cons_cons.2 ⟨star_joins c, htail⟩⟩
          · next hjoins =>
            exact List.isChain_cons_cons.2 ⟨by simpa using hjoins, htail⟩

theorem quiet_expand (text : List Char) : Quiet (expand text) :=
  quiet_placeAfter none 0 text

theorem expand_expand (text : List Char) :
    expand (expand text) = expand text :=
  expand_of_quiet (quiet_expand text)

theorem place_expand (text : List Char) :
    place (expand text) = placeTyped 0 (expand text) :=
  placeAfter_of_quiet (quiet_expand text) (by rintro b ⟨⟩) 0

/-! ## Where the characters have come from -/

/-- The index in the text as typed that a character of the text with its stars
carries. -/
def origin (text : List Char) (k : Nat) : Nat :=
  ((place text)[k]?.map Placed.position).getD 0

theorem map_relocate_placeTyped {f : Nat → Nat} {index : Nat}
    {placed : List Placed}
    (h : ∀ k p, placed[k]? = some p → f (index + k) = p.position) :
    (placeTyped index (placed.map Placed.char)).map (Placed.relocate f) =
      placed := by
  induction placed generalizing index with
  | nil => rfl
  | cons p rest ih =>
      have hpositions : ∀ k q, rest[k]? = some q →
          f (index + 1 + k) = q.position := by
        intro k q hq
        rw [Nat.add_right_comm]
        exact h (k + 1) q hq
      have hrest := ih hpositions
      have hhead : f index = p.position := h 0 p rfl
      rw [List.map_cons, placeTyped_cons, List.map_cons, hrest,
        Placed.relocate, hhead]

theorem place_eq_relocate (text : List Char) :
    place text =
      (place (expand text)).map (Placed.relocate (origin text)) := by
  rw [place_expand]
  refine (map_relocate_placeTyped fun k p hp => ?_).symm
  rw [Nat.zero_add, origin, hp]
  rfl

end ImplicitProduct

theorem parseChars_expand [Literal ν] (text : List Char) :
    parseChars (ν := ν) text =
      relocated (origin text) id (parseChars (expand text)) := by
  rw [parseChars_eq_parsePlaced, parseChars_eq_parsePlaced,
    place_eq_relocate text, parsePlaced_relocate]

/-- The text as typed and the indices of its characters are left when the stars
are taken out; they stand in front of those characters that are factors with
the one before, at the same position. Expanding a second time changes nothing,
and expanding a text does not change what it parses to, nor the reason of an
error. -/
theorem expansion_lossless_and_neutral [Literal ν] (text : String) :
    withoutStars (place text.toList) =
      text.toList.zipIdx.map (fun (c, i) => ⟨c, i⟩) ∧
    place text.toList = text.toList.zipIdx.flatMap (fun (c, i) =>
      starBefore text.toList i ++ [⟨c, i⟩]) ∧
    expand (expand text.toList) = expand text.toList ∧
    parse (ν := ν) text =
      match parse (String.ofList (expand text.toList)) with
      | .ok e => .ok e
      | .error err =>
        .error ⟨err.reason, err.position.map (origin text.toList)⟩ := by
  refine ⟨withoutStars_placeAfter none 0 _, place_eq_flatMap _,
    expand_expand _, ?_⟩
  rw [parse, parse, String.toList_ofList, parseChars_expand]
  cases parseChars (ν := ν) (expand text.toList) <;> rfl

end SciCalc
