import SciCalc.Proofs.Expression.Blame

/-!
# Where parse errors point

An error comes from the look at the brackets, from the cutting of the text or
from the parser. In every case it points at a character of the text as typed
that is not blank, and if it is about a token, that token begins there.
-/

namespace SciCalc

open Outcome ImplicitProduct

variable {ν : Type}

/-- The scan finds a bracket of the text or one that was open before. -/
theorem Brackets.visibleAt_of_scan {opened : List Nat} {index : Nat}
    {text : List Char} {p : Nat} (h : scan opened index text = some p) :
    p ∈ opened ∨ Text.VisibleAt index text p := by
  fun_induction scan opened index text with
  | case1 opened index => exact .inl (List.mem_of_head? h)
  | case2 opened index rest ih =>
      rcases ih h with hopened | hvisible
      · rcases List.mem_cons.1 hopened with rfl | hopened
        · exact .inr (Text.visibleAt_head (by decide))
        · exact .inl hopened
      · exact .inr (hvisible.behind ['('])
  | case3 index rest =>
      cases h
      exact .inr (Text.visibleAt_head (by decide))
  | case4 index rest opening outer ih =>
      rcases ih h with hopened | hvisible
      · exact .inl (List.mem_cons_of_mem opening hopened)
      · exact .inr (hvisible.behind [')'])
  | case5 opened index c rest _ _ ih =>
      rcases ih h with hopened | hvisible
      · exact .inl hopened
      · exact .inr (hvisible.behind [c])

/-! ## From the text to its tokens -/

/-- The character that a token by itself is. -/
def Token.symbol? : Token ν → Option Char
  | .number _ | .identifier _ => none
  | .operator op => op.symbol.toList.head?
  | .leftParen => some '('
  | .rightParen => some ')'
  | .comma => some ','

section Spelled

variable [Literal ν] {run : List Char} {token : Token ν}

theorem Token.Spelled.symbol?_eq (h : token.Spelled run) :
    ∀ c ∈ token.symbol?, run = [c] := by
  intro c hc
  cases h with
  | number hne hrun hread => cases hc
  | identifier hne hrun => cases hc
  | symbol htoken =>
      unfold Token.ofChar? at htoken
      split at htoken <;> cases htoken <;> cases hc <;> rfl

/-- Stars are only placed behind the end of an operand. -/
theorem Token.Spelled.closes_of_joins (h : token.Spelled run) {b c : Char}
    (hb : b ∈ run.getLast?) (hjoins : joins b c = true) :
    token.closes = true := by
  cases h with
  | number hne hrun hread => rfl
  | identifier hne hrun => rfl
  | symbol htoken =>
      cases hb
      unfold Token.ofChar? at htoken
      split at htoken <;> cases htoken <;> first | rfl | cases hjoins

end Spelled

namespace Lexeme.Cut

variable [Literal ν] {before : Option Char} {index : Nat} {text : List Char}
variable {typed full : List (Lexeme ν)}

/-- A text without tokens is blank. -/
theorem isBlank_of_nil (h : Cut before index text typed full)
    (hfull : full = []) : ∀ c ∈ text, Text.isBlank c = true := by
  induction h with
  | nil => simp
  | blank hblank h ih => exact List.forall_mem_cons.2 ⟨hblank, ih hfull⟩
  | product hjoins h ih => cases hfull
  | token hspelled hfree hstop h ih => cases hfull

theorem ne_nil (h : Cut before index text typed full)
    (hvisible : text.all Text.isBlank = false) : full ≠ [] := by
  intro hnil
  have hblank := h.isBlank_of_nil hnil
  rw [← List.all_eq_true, hvisible] at hblank
  cases hblank

/-- Every token as typed begins where its position says. -/
theorem spelled_of_mem (h : Cut before index text typed full) :
    ∀ l ∈ typed, ∃ k run, l.position = index + k ∧ l.token.Spelled run ∧
      run <+: text.drop k := by
  induction h with
  | nil => simp
  | @blank before index c rest typed full hblank h ih =>
      intro l hl
      obtain ⟨k, run, hposition, hspelled, hrun⟩ := ih l hl
      exact ⟨k + 1, run, by omega, hspelled, hrun⟩
  | product hjoins h ih => exact ih
  | @token before index run rest token typed full hspelled hfree hstop h ih =>
      rw [List.forall_mem_cons]
      refine ⟨⟨0, run, rfl, hspelled, List.prefix_append run rest⟩, ?_⟩
      intro l hl
      obtain ⟨k, run', hposition, hspelled', hrun'⟩ := ih l hl
      refine ⟨run.length + k, run', by omega, hspelled', ?_⟩
      rwa [List.drop_length_add_append]

/-- With the stars of implicit products, one of which may come first. -/
theorem starred (h : Cut before index text typed full)
    {all : List (Lexeme ν)} (hall : ∀ l ∈ typed, l ∈ all) :
    Starred all full ∨
      ∃ b ∈ before, ∃ c next rest, joins b c = true ∧
        full = ⟨.operator .mul, index⟩ :: next :: rest ∧
        Starred all (next :: rest) := by
  induction h with
  | nil => exact .inl .nil
  | blank hblank h ih =>
      rcases ih hall with hfull | ⟨b, hb, c, next, rest, hjoins, -, -⟩
      · exact .inl hfull
      · -- no star stands directly behind white space
        cases hb
        rw [joins_of_blank hblank] at hjoins
        cases hjoins
  | @product b index c rest typed full hjoins h ih =>
      rcases ih hall with hfull | ⟨b, hb, -⟩
      · refine .inr ⟨b, rfl, c, ?_⟩
        cases full with
        | nil =>
            have hblank := h.isBlank_of_nil rfl c List.mem_cons_self
            rw [not_isBlank_of_joins hjoins] at hblank
            cases hblank
        | cons next others => exact ⟨next, others, hjoins, rfl, hfull⟩
      · cases hb
  | token hspelled hfree hstop h ih =>
      rw [List.forall_mem_cons] at hall
      rcases ih hall.2 with hfull | ⟨b, hb, c, next, rest, hjoins, rfl, hfull⟩
      · exact .inl (.cons hall.1 hfull)
      · exact .inl (.star hall.1 (hspelled.closes_of_joins hb hjoins) hfull)

end Lexeme.Cut

/-! ## From the error to the text -/

/-- The error points at this character of the text, which is not blank. A
token that the error is about is one of the text as typed and begins there. -/
structure ParseError.PointsAt [Literal ν] (text : List Char)
    (err : ParseError ν) (p : Nat) (c : Char) : Prop where
  position : err.position = some p
  char : text[p]? = some c
  not_blank : Text.isBlank c = false
  token : ∀ token ∈ err.reason.subject?,
    (∃ typed, Lexeme.ofRawText text = .ok typed ∧ ⟨token, p⟩ ∈ typed) ∧
      (∃ run, token.Spelled run ∧ run <+: text.drop p) ∧
      ∀ symbol ∈ token.symbol?, c = symbol

section Pointing

variable [Literal ν] {text : List Char} {err : ParseError ν}

theorem pointsAt_of_visibleAt {p : Nat} (hposition : err.position = some p)
    (hvisible : Text.VisibleAt 0 text p) (hreason : err.reason.subject? = none) :
    ∃ p c, err.PointsAt text p c := by
  obtain ⟨k, c, rfl, hchar, hblank⟩ := hvisible
  rw [Nat.zero_add] at hposition
  refine ⟨k, c, hposition, hchar, hblank, ?_⟩
  rw [hreason]
  rintro token ⟨⟩

theorem pointsAt_of_blamed {before : Option Char}
    {typed full : List (Lexeme ν)} (hcut : Lexeme.Cut before 0 text typed full)
    (hblamed : Blamed typed err) : ∃ p c, err.PointsAt text p c := by
  obtain ⟨l, hl, hposition, htoken⟩ := hblamed
  obtain ⟨k, run, hk, hspelled, hrun⟩ := hcut.spelled_of_mem l hl
  rw [Nat.zero_add] at hk
  subst hk
  obtain ⟨c, chars, rfl⟩ := List.exists_cons_of_ne_nil hspelled.ne_nil
  have hchar : text[l.position]? = some c := by
    obtain ⟨after, hafter⟩ := hrun
    rw [← Nat.add_zero l.position, ← List.getElem?_drop, ← hafter]
    rfl
  refine ⟨l.position, c, hposition, hchar,
    hspelled.not_isBlank c List.mem_cons_self, ?_⟩
  intro token hsubject
  obtain rfl := htoken token hsubject
  refine ⟨⟨typed, hcut.ofPlaced_placeTyped, hl⟩, ⟨_, hspelled, hrun⟩, ?_⟩
  intro symbol hsymbol
  exact (List.cons.inj (hspelled.symbol?_eq symbol hsymbol)).1

/-- The three sources of errors, one after the other. -/
theorem pointsAt_of_parseChars (hvisible : text.all Text.isBlank = false)
    (herr : parseChars text = .error err) : ∃ p c, err.PointsAt text p c := by
  unfold parseChars at herr
  rw [hvisible] at herr
  cases hbrackets : Brackets.unmatched text with
  | some p =>
      simp only [hbrackets] at herr
      cases herr
      rcases Brackets.visibleAt_of_scan hbrackets with hopened | hvisible
      · cases hopened
      · exact pointsAt_of_visibleAt rfl hvisible rfl
  | none =>
      simp only [hbrackets] at herr
      rcases Lexeme.cut_or_offence (ν := ν) none 0 text with
        ⟨typed, full, hcut⟩ | ⟨err', herr', ⟨p, hposition, hvisible⟩, hreason⟩
      · have hfull := hcut.ne_nil hvisible
        rcases hcut.starred fun _ => id with hstarred | ⟨b, hb, -⟩
        · apply pointsAt_of_blamed hcut
          apply blamed_of_parseLexemes hstarred hfull
          rw [← herr, Lexeme.ofText, place, hcut.ofPlaced_placeAfter]
          rfl
        · cases hb
      · rw [Lexeme.ofText, place, herr'] at herr
        cases herr
        exact pointsAt_of_visibleAt hposition hvisible hreason

end Pointing

/-- An error has no position exactly when the text is blank. Otherwise it
points at a character of the text as typed that is not blank; and if it is
about a token, that token is one that was typed there, and no star of an
implicit product. -/
theorem parse_error_points_at_text [Literal ν] (text : String)
    (err : ParseError ν) (herr : parse text = .error err) :
    (err.position = none ↔ ∀ c ∈ text.toList, Text.isBlank c = true) ∧
      ∀ p, err.position = some p → ∃ c, err.PointsAt text.toList p c := by
  rw [parse] at herr
  cases hblank : text.toList.all Text.isBlank with
  | true =>
      unfold parseChars at herr
      rw [hblank] at herr
      cases herr
      refine ⟨⟨fun _ => List.all_eq_true.1 hblank, fun _ => rfl⟩, ?_⟩
      rintro p ⟨⟩
  | false =>
      obtain ⟨p, c, hpoints⟩ := pointsAt_of_parseChars hblank herr
      constructor
      · constructor
        · intro hnone
          rw [hpoints.position] at hnone
          cases hnone
        · intro hall
          rw [← List.all_eq_true, hblank] at hall
          cases hall
      · intro p' hp'
        rw [hpoints.position] at hp'
        cases hp'
        exact ⟨c, hpoints⟩

/-- Of two stars side by side, one placed and one typed, the typed one is
blamed. -/
theorem parse_error_at_typed_star :
    let text := "(x)(*y)"
    let err : ParseError Float := .here 4 (.unexpected (.operator .mul))
    parse text = .error err ∧
      (err.position = none ↔ ∀ c ∈ text.toList, Text.isBlank c = true) ∧
      ∃ c, err.PointsAt text.toList 4 c := by
  intro text err
  have hparse : parse text = .error err := by cbv
  obtain ⟨hblank, hpoints⟩ := parse_error_points_at_text text err hparse
  exact ⟨hparse, hblank, hpoints 4 rfl⟩

end SciCalc
