import SciCalc.Proofs.Expression.Rendering

/-!
# How a text is cut

A relation between a text, its tokens as typed and its tokens with the stars of
implicit products. It follows the text from left to right, one token or one
blank at a time, and it is what cutting computes: every text is cut in this way
unless a character of it is refused, and then the error points at that
character.
-/

namespace SciCalc

open Outcome ImplicitProduct Lexeme

variable {ν : Type}

/-- In a text whose first character has the given index, the character at `p`
is not blank. -/
def Text.VisibleAt (index : Nat) (text : List Char) (p : Nat) : Prop :=
  ∃ k c, p = index + k ∧ text[k]? = some c ∧ isBlank c = false

theorem Text.visibleAt_head {c : Char} (hc : isBlank c = false) {index : Nat}
    {rest : List Char} : VisibleAt index (c :: rest) index :=
  ⟨0, c, rfl, rfl, hc⟩

theorem Text.VisibleAt.behind {index : Nat} {after : List Char} {p : Nat}
    (before : List Char) (h : VisibleAt (index + before.length) after p) :
    VisibleAt index (before ++ after) p := by
  obtain ⟨k, c, rfl, hchar, hvisible⟩ := h
  refine ⟨before.length + k, c, Nat.add_assoc _ _ _, ?_, hvisible⟩
  rw [List.getElem?_append_right (Nat.le_add_right _ k),
    Nat.add_sub_cancel_left, hchar]

/-- The token that an error is about: the one that stands where it should not,
or the name or bracket that something is wrong with. -/
def ParseReason.subject? : ParseReason ν → Option (Token ν)
  | .endsWith token | .unexpected token | .unclosed token => some token
  | .bareFunction name | .unknownFunction name | .argumentCount name _ _ =>
    some (.identifier name)
  | .emptyParentheses => some .rightParen
  | .empty | .unbalanced | .malformedNumber _ | .unknownCharacter _ | .tooDeep
  | .unexpectedEnd | .stated _ => none

/-! ## Spelling -/

/-- The characters that a token is written with. -/
inductive Token.Spelled [Literal ν] : List Char → Token ν → Prop
  | number {run : List Char} {value : ν} (hne : run ≠ [])
      (hrun : ∀ c ∈ run, isNumeric c = true)
      (hread : Literal.read? run = some value) : Spelled run (.number value)
  | identifier {run : List Char} (hne : run ≠ [])
      (hrun : ∀ c ∈ run, c.isAlpha = true) :
      Spelled run (.identifier (String.ofList run))
  | symbol {c : Char} {token : Token ν} (htoken : Token.ofChar? c = some token) :
      Spelled [c] token

/-- The characters that would go on with a run. -/
def Token.continues : Token ν → Char → Bool
  | .number _, c => isNumeric c
  | .identifier _, c => c.isAlpha
  | _, _ => false

theorem Token.continues_star (token : Token ν) :
    token.continues '*' = false := by
  cases token <;> rfl

/-- The tokens that can end an operand. -/
def Token.closes : Token ν → Bool
  | .number _ | .identifier _ | .rightParen => true
  | _ => false

/-- A character that is a token by itself belongs to no class. -/
theorem Token.class_of_ofChar? {c : Char} {token : Token ν}
    (htoken : Token.ofChar? c = some token) :
    Text.isBlank c = false ∧ isNumeric c = false ∧ c.isAlpha = false := by
  unfold Token.ofChar? at htoken
  split at htoken <;> cases htoken <;> decide

theorem Token.continues_of_ofChar? {c : Char} {token : Token ν}
    (htoken : Token.ofChar? c = some token) (d : Char) :
    token.continues d = false := by
  unfold Token.ofChar? at htoken
  split at htoken <;> cases htoken <;> rfl

namespace Token.Spelled

variable [Literal ν] {run : List Char} {token : Token ν}

theorem ne_nil (h : Spelled run token) : run ≠ [] := by
  cases h with
  | number hne hrun hread => exact hne
  | identifier hne hrun => exact hne
  | symbol htoken => exact List.cons_ne_nil _ _

theorem not_isBlank (h : Spelled run token) :
    ∀ c ∈ run, Text.isBlank c = false := by
  intro c hc
  cases h with
  | number hne hrun hread => exact not_isBlank_of_isNumeric (hrun c hc)
  | identifier hne hrun =>
      rw [Bool.eq_false_iff]
      intro hblank
      have halpha := hrun c hc
      rw [Text.not_isAlpha_of_isBlank hblank] at halpha
      cases halpha
  | symbol htoken =>
      rw [List.mem_singleton.1 hc]
      exact (Token.class_of_ofChar? htoken).1

/-- A name is a run of letters. -/
theorem letters {name : String} (h : Spelled run (.identifier (ν := ν) name)) :
    name.toList ≠ [] ∧ ∀ c ∈ name.toList, c.isAlpha = true := by
  cases h with
  | identifier hne hrun =>
      rw [String.toList_ofList]
      exact ⟨hne, hrun⟩
  | symbol htoken =>
      unfold Token.ofChar? at htoken
      split at htoken <;> cases htoken

/-- The characters that tokens are written with. -/
theorem class_of_mem (h : Spelled run token) {c : Char} (hc : c ∈ run) :
    isNumeric c = true ∨ c.isAlpha = true ∨
      ∃ symbol : Token ν, Token.ofChar? c = some symbol := by
  cases h with
  | number hne hrun hread => exact .inl (hrun c hc)
  | identifier hne hrun => exact .inr (.inl (hrun c hc))
  | symbol htoken =>
      rw [List.mem_singleton.1 hc]
      exact .inr (.inr ⟨token, htoken⟩)

/-- No star is placed within a token. -/
theorem quiet (h : Spelled run token) : Quiet run := by
  cases h with
  | number hne hrun hread => exact quiet_of_isNumeric hrun
  | identifier hne hrun => exact quiet_of_isAlpha hrun
  | symbol htoken => exact List.isChain_singleton _

end Token.Spelled

namespace ImplicitProduct

/-- The stars of a text are placed piece by piece. -/
theorem placeAfter_append (before : Option Char) (index : Nat)
    (front back : List Char) :
    placeAfter before index (front ++ back) =
      placeAfter before index front ++
        placeAfter (front.getLast?.or before) (index + front.length) back := by
  induction front generalizing before index with
  | nil => rfl
  | cons c rest ih =>
      have hlast : (c :: rest).getLast?.or before =
          rest.getLast?.or (some c) := by
        rw [List.getLast?_cons]
        cases rest.getLast? <;> rfl
      have hindex : index + (c :: rest).length = index + 1 + rest.length := by
        rw [List.length_cons]
        omega
      rw [hlast, hindex, List.cons_append]
      cases before with
      | none => simp [placeAfter, ih]
      | some b =>
          simp only [placeAfter, ih]
          split <;> rfl

theorem char_of_head?_placeTyped {index : Nat} {text : List Char}
    {q : Placed} (hq : q ∈ (placeTyped index text).head?) :
    q.char ∈ text.head? := by
  cases text with
  | nil => cases hq
  | cons c rest =>
      cases hq
      rfl

theorem char_of_head?_placeAfter {before : Option Char} {index : Nat}
    {text : List Char} {q : Placed}
    (hq : q ∈ (placeAfter before index text).head?) :
    q.char = '*' ∨ q.char ∈ text.head? := by
  cases text with
  | nil => cases hq
  | cons c rest =>
      cases before with
      | none =>
          cases hq
          exact Or.inr rfl
      | some b =>
          simp only [placeAfter] at hq
          split at hq
          · cases hq
            exact Or.inl rfl
          · cases hq
            exact Or.inr rfl

/-- What the next character of a text stops, a star in front of it stops too. -/
theorem stops_placeAfter {f : Char → Bool} (hstar : f '*' = false)
    {before : Option Char} {index : Nat} {text : List Char}
    (hstop : ∀ c ∈ text.head?, f c = false) :
    ∀ q ∈ (placeAfter before index text).head?, f q.char = false := by
  intro q hq
  rcases char_of_head?_placeAfter hq with hq | hq
  · rw [hq, hstar]
  · exact hstop q.char hq

end ImplicitProduct

namespace Lexeme

/-- A run in front of a character that does not go on with it. -/
theorem run_of_stops {f : Char → Bool} {run rest : List Placed}
    (hrun : ∀ q ∈ run, f q.char = true)
    (hstop : ∀ q ∈ rest.head?, f q.char = false) :
    (run ++ rest).takeWhile (fun q => f q.char) = run ∧
      (run ++ rest).dropWhile (fun q => f q.char) = rest := by
  obtain ⟨htake, hdrop⟩ := Text.takeWhile_append_of_stops
    (f := fun q : Placed => f q.char) fun _ => hstop
  rw [htake, hdrop, List.takeWhile_eq_self_iff.2 hrun,
    List.dropWhile_eq_nil_iff.2 hrun]
  exact ⟨rfl, rfl⟩

theorem forall_char {f : Char → Bool} {run : List Placed} :
    (∀ c ∈ run.map Placed.char, f c = true) ↔
      ∀ q ∈ run, f q.char = true :=
  List.forall_mem_map

theorem getLast?_or {α : Type} {run : List α} (hne : run ≠ [])
    (before : Option α) : run.getLast?.or before = run.getLast? := by
  rw [List.getLast?_eq_getLast_of_ne_nil hne, Option.some_or]

section Runs

variable [Literal ν] {p : Placed} {run rest : List Placed}

/-- A token in front of a character that does not go on with it is cut off. -/
theorem ofPlaced_spelled {token : Token ν}
    (h : token.Spelled ((p :: run).map Placed.char))
    (hstop : ∀ q ∈ rest.head?, token.continues q.char = false) :
    ofPlaced (p :: run ++ rest) =
      (ofPlaced rest >>= fun lexemes =>
        .ok (⟨token, p.position⟩ :: lexemes)) := by
  generalize hchars : (p :: run).map Placed.char = chars at h
  cases h with
  | number hne hrun hread =>
      subst hchars
      rw [forall_char, List.forall_mem_cons] at hrun
      obtain ⟨htake, hdrop⟩ := run_of_stops hrun.2 hstop
      rw [List.cons_append,
        ofPlaced_number hrun.1 (by rw [htake]; exact hread), hdrop]
  | identifier hne hrun =>
      subst hchars
      rw [forall_char, List.forall_mem_cons] at hrun
      obtain ⟨htake, hdrop⟩ := run_of_stops hrun.2 hstop
      rw [List.cons_append, ofPlaced_identifier hrun.1, htake, hdrop,
        List.map_cons]
  | symbol htoken =>
      obtain ⟨rfl, hnil⟩ := List.cons.inj hchars
      obtain rfl := List.map_eq_nil_iff.1 hnil
      obtain ⟨hblank, hnumeric, halpha⟩ := Token.class_of_ofChar? htoken
      exact ofPlaced_symbol hblank hnumeric halpha htoken

/-- A run of digits and points that is no number is refused as a whole. -/
theorem ofPlaced_malformed_run (hrun : ∀ q ∈ p :: run, isNumeric q.char = true)
    (hstop : ∀ q ∈ rest.head?, isNumeric q.char = false)
    (hread : Literal.read? (ν := ν) ((p :: run).map Placed.char) = none) :
    ofPlaced (ν := ν) (p :: run ++ rest) =
      .error (.here p.position (.malformedNumber
        (String.ofList ((p :: run).map Placed.char)))) := by
  rw [List.forall_mem_cons] at hrun
  obtain ⟨htake, -⟩ := run_of_stops hrun.2 hstop
  rw [List.cons_append,
    ofPlaced_malformed hrun.1 (by rw [htake]; exact hread), htake,
    List.map_cons]

end Runs

theorem ofPlaced_token [Literal ν] {run : List Char} {token : Token ν}
    (h : token.Spelled run) {rest : List Placed}
    (hstop : ∀ q ∈ rest.head?, token.continues q.char = false) (index : Nat) :
    ofPlaced (placeTyped index run ++ rest) =
      (ofPlaced rest >>= fun lexemes =>
        .ok (⟨token, index⟩ :: lexemes)) := by
  obtain ⟨c, chars, rfl⟩ := List.exists_cons_of_ne_nil h.ne_nil
  rw [← map_char_placeTyped index (c :: chars)] at h
  exact ofPlaced_spelled h hstop

/-! ## One step -/

section Steps

variable [Literal ν] {before : Option Char} {index : Nat} {rest : List Char}

theorem ofPlaced_placeAfter_blank {c : Char} (hblank : Text.isBlank c = true) :
    ofPlaced (ν := ν) (placeAfter before index (c :: rest)) =
      ofPlaced (placeAfter (some c) (index + 1) rest) := by
  have hplace : placeAfter before index (c :: rest) =
      ⟨c, index⟩ :: placeAfter (some c) (index + 1) rest := by
    cases before with
    | none => rfl
    | some b => simp [placeAfter, joins_blank hblank]
  rw [hplace, ofPlaced_blank hblank]

theorem ofPlaced_placeAfter_star {b c : Char} (hjoins : joins b c = true) :
    ofPlaced (ν := ν) (placeAfter (some b) index (c :: rest)) =
      (ofPlaced (placeAfter none index (c :: rest)) >>= fun lexemes =>
        .ok (⟨.operator .mul, index⟩ :: lexemes)) := by
  have hplace : placeAfter (some b) index (c :: rest) =
      ⟨'*', index⟩ :: placeAfter none index (c :: rest) := by
    simp [placeAfter, hjoins]
  have hstar : Token.ofChar? (ν := ν) '*' = some (.operator .mul) := rfl
  obtain ⟨hblank, hnumeric, halpha⟩ := Token.class_of_ofChar? hstar
  rw [hplace, ofPlaced_symbol hblank hnumeric halpha hstar]

theorem ofPlaced_placeAfter_token {run : List Char} {token : Token ν}
    (hspelled : token.Spelled run)
    (hfree : ∀ b ∈ before, ∀ c ∈ run.head?, joins b c = false)
    (hstop : ∀ c ∈ rest.head?, token.continues c = false) :
    ofPlaced (placeAfter before index (run ++ rest)) =
      (ofPlaced (placeAfter run.getLast? (index + run.length) rest) >>=
        fun lexemes => .ok (⟨token, index⟩ :: lexemes)) := by
  have hstop' : ∀ q ∈ (placeAfter run.getLast? (index + run.length)
      rest).head?, token.continues q.char = false :=
    stops_placeAfter token.continues_star hstop
  rw [placeAfter_append, getLast?_or hspelled.ne_nil,
    placeAfter_of_quiet hspelled.quiet hfree,
    ofPlaced_token hspelled hstop' index]

theorem ofPlaced_placeAfter_malformed {run : List Char} (hne : run ≠ [])
    (hrun : ∀ c ∈ run, isNumeric c = true)
    (hstop : ∀ c ∈ rest.head?, isNumeric c = false)
    (hread : Literal.read? (ν := ν) run = none) :
    ofPlaced (ν := ν) (placeAfter none index (run ++ rest)) =
      .error (.here index (.malformedNumber (String.ofList run))) := by
  have hquiet : placeAfter none index run = placeTyped index run :=
    placeAfter_of_quiet (quiet_of_isNumeric hrun) (by rintro b ⟨⟩) index
  have hstop' : ∀ q ∈ (placeAfter run.getLast? (index + run.length)
      rest).head?, isNumeric q.char = false :=
    stops_placeAfter (by decide) hstop
  rw [placeAfter_append, hquiet, getLast?_or hne]
  obtain ⟨c, chars, rfl⟩ := List.exists_cons_of_ne_nil hne
  have hchars : (⟨c, index⟩ :: placeTyped (index + 1) chars).map Placed.char =
      c :: chars := map_char_placeTyped index (c :: chars)
  rw [placeTyped_cons]
  rw [← hchars] at hrun hread
  rw [ofPlaced_malformed_run (forall_char.1 hrun) hstop' hread, hchars]

end Steps

/-! ## The relation -/

/-- The text, whose first character has the given index and follows `before`,
is cut into the tokens `typed`; with the stars of implicit products between
them they are the tokens `full`. -/
inductive Cut [Literal ν] : Option Char → Nat → List Char →
    List (Lexeme ν) → List (Lexeme ν) → Prop
  | nil {before : Option Char} {index : Nat} : Cut before index [] [] []
  | blank {before : Option Char} {index : Nat} {c : Char} {rest : List Char}
      {typed full : List (Lexeme ν)} (hblank : Text.isBlank c = true)
      (h : Cut (some c) (index + 1) rest typed full) :
      Cut before index (c :: rest) typed full
  | product {b : Char} {index : Nat} {c : Char} {rest : List Char}
      {typed full : List (Lexeme ν)} (hjoins : joins b c = true)
      (h : Cut none index (c :: rest) typed full) :
      Cut (some b) index (c :: rest) typed (⟨.operator .mul, index⟩ :: full)
  | token {before : Option Char} {index : Nat} {run rest : List Char}
      {token : Token ν} {typed full : List (Lexeme ν)}
      (hspelled : token.Spelled run)
      (hfree : ∀ b ∈ before, ∀ c ∈ run.head?, joins b c = false)
      (hstop : ∀ c ∈ rest.head?, token.continues c = false)
      (h : Cut run.getLast? (index + run.length) rest typed full) :
      Cut before index (run ++ rest) (⟨token, index⟩ :: typed)
        (⟨token, index⟩ :: full)

namespace Cut

variable [Literal ν] {before : Option Char} {index : Nat} {text : List Char}
variable {typed full : List (Lexeme ν)}

/-- Without stars a text is cut into the tokens as typed. -/
theorem ofPlaced_placeTyped (h : Cut before index text typed full) :
    ofPlaced (placeTyped index text) = .ok typed := by
  induction h with
  | nil => rw [placeTyped_nil, ofPlaced]
  | blank hblank h ih => rw [placeTyped_cons, ofPlaced_blank hblank, ih]
  | product hjoins h ih => exact ih
  | @token before index run rest token typed full hspelled hfree hstop h ih =>
      have hstop' : ∀ q ∈ (placeTyped (index + run.length) rest).head?,
          token.continues q.char = false :=
        fun q hq => hstop q.char (char_of_head?_placeTyped hq)
      rw [placeTyped_append, ofPlaced_token hspelled hstop' index, ih, ok_bind]

/-- With stars it is cut into the other list of tokens. -/
theorem ofPlaced_placeAfter (h : Cut before index text typed full) :
    ofPlaced (placeAfter before index text) = .ok full := by
  induction h with
  | nil => rw [placeAfter, ofPlaced]
  | blank hblank h ih => rw [ofPlaced_placeAfter_blank hblank, ih]
  | product hjoins h ih => rw [ofPlaced_placeAfter_star hjoins, ih, ok_bind]
  | token hspelled hfree hstop h ih =>
      rw [ofPlaced_placeAfter_token hspelled hfree hstop, ih, ok_bind]

/-- Every token, placed stars included, is spelled by characters. -/
theorem exists_spelled (h : Cut before index text typed full) :
    ∀ l ∈ full, ∃ run, l.token.Spelled run := by
  induction h with
  | nil => simp
  | blank hblank h ih => exact ih
  | product hjoins h ih =>
      exact List.forall_mem_cons.2 ⟨⟨['*'], .symbol rfl⟩, ih⟩
  | token hspelled hfree hstop h ih =>
      exact List.forall_mem_cons.2 ⟨⟨_, hspelled⟩, ih⟩

/-- No other characters stand in a text that is cut. -/
theorem class_of_mem (h : Cut before index text typed full) {c : Char}
    (hc : c ∈ text) :
    Text.isBlank c = true ∨ isNumeric c = true ∨ c.isAlpha = true ∨
      ∃ symbol : Token ν, Token.ofChar? c = some symbol := by
  induction h with
  | nil => cases hc
  | blank hblank h ih =>
      rcases List.mem_cons.1 hc with rfl | hc
      · exact .inl hblank
      · exact ih hc
  | product hjoins h ih => exact ih hc
  | token hspelled hfree hstop h ih =>
      rcases List.mem_append.1 hc with hc | hc
      · exact .inr (hspelled.class_of_mem hc)
      · exact ih hc

end Cut

/-! ## Every text is cut or refused -/

/-- The error points at a character of the text that is not blank, and it is
about no token. -/
def Offence (index : Nat) (text : List Char) (err : ParseError ν) : Prop :=
  (∃ p, err.position = some p ∧ Text.VisibleAt index text p) ∧
    err.reason.subject? = none

theorem Offence.behind {index : Nat} {after : List Char} {err : ParseError ν}
    (before : List Char) (h : Offence (index + before.length) after err) :
    Offence index (before ++ after) err := by
  obtain ⟨⟨p, hposition, hvisible⟩, hreason⟩ := h
  exact ⟨⟨p, hposition, hvisible.behind before⟩, hreason⟩

section Total

variable [Literal ν]

/-- A run ends where its class does. -/
theorem exists_run (f : Char → Bool) {c : Char} (hc : f c = true)
    (rest : List Char) :
    ∃ run after, c :: rest = run ++ after ∧ run ≠ [] ∧
      (∀ d ∈ run, f d = true) ∧ ∀ d ∈ after.head?, f d = false := by
  refine ⟨c :: rest.takeWhile f, rest.dropWhile f, ?_, List.cons_ne_nil _ _,
    ?_, ?_⟩
  · rw [List.cons_append, List.takeWhile_append_dropWhile]
  · rw [List.forall_mem_cons]
    exact ⟨hc, fun d hd => List.mem_takeWhile_imp hd⟩
  · intro d hd
    have hhead := List.head?_dropWhile_not f rest
    rw [Option.mem_def.1 hd] at hhead
    simpa using hhead

/-- A character that is not blank begins a token, or it is refused. -/
theorem spelled_or_refused {c : Char} (hblank : Text.isBlank c = false)
    (rest : List Char) :
    (∃ (token : Token ν) (run after : List Char), c :: rest = run ++ after ∧
      token.Spelled run ∧ ∀ d ∈ after.head?, token.continues d = false) ∨
    ∃ reason : ParseReason ν, reason.subject? = none ∧
      ∀ index, ofPlaced (placeAfter none index (c :: rest)) =
        .error (.here index reason) := by
  cases hnumeric : isNumeric c with
  | true =>
      obtain ⟨run, after, htext, hne, hrun, hstop⟩ :=
        exists_run isNumeric hnumeric rest
      cases hread : Literal.read? (ν := ν) run with
      | some value =>
          exact .inl ⟨.number value, run, after, htext,
            .number hne hrun hread, hstop⟩
      | none =>
          refine .inr ⟨.malformedNumber (String.ofList run), rfl, ?_⟩
          intro index
          rw [htext]
          exact ofPlaced_placeAfter_malformed hne hrun hstop hread
  | false =>
      cases halpha : c.isAlpha with
      | true =>
          obtain ⟨run, after, htext, hne, hrun, hstop⟩ :=
            exists_run Char.isAlpha halpha rest
          exact .inl ⟨.identifier (String.ofList run), run, after, htext,
            .identifier hne hrun, hstop⟩
      | false =>
          cases htoken : Token.ofChar? (ν := ν) c with
          | some token =>
              refine .inl ⟨token, [c], rest, rfl, .symbol htoken, ?_⟩
              intro d _
              exact Token.continues_of_ofChar? htoken d
          | none =>
              refine .inr ⟨.unknownCharacter c, rfl, ?_⟩
              intro index
              exact ofPlaced_unknown hblank hnumeric halpha htoken

/-- A refusal stays one behind any character. -/
theorem error_of_none {index : Nat} {c : Char} {rest : List Char}
    {err : ParseError ν}
    (herr : ofPlaced (placeAfter none index (c :: rest)) = .error err)
    (before : Option Char) :
    ofPlaced (placeAfter before index (c :: rest)) = .error err := by
  cases before with
  | none => exact herr
  | some b =>
      cases hjoins : joins b c with
      | true => rw [ofPlaced_placeAfter_star hjoins, herr, error_bind]
      | false =>
          have hplace : placeAfter (some b) index (c :: rest) =
              placeAfter none index (c :: rest) := by
            simp [placeAfter, hjoins]
          rw [hplace, herr]

/-- A token is put in front of a text that is cut, and a star in front of the
token if need be. -/
theorem Cut.first (before : Option Char) {index : Nat} {run rest : List Char}
    {token : Token ν} {typed full : List (Lexeme ν)}
    (hspelled : token.Spelled run)
    (hstop : ∀ c ∈ rest.head?, token.continues c = false)
    (h : Cut run.getLast? (index + run.length) rest typed full) :
    ∃ full', Cut before index (run ++ rest) (⟨token, index⟩ :: typed) full' := by
  obtain ⟨c, chars, rfl⟩ := List.exists_cons_of_ne_nil hspelled.ne_nil
  by_cases hjoins : ∃ b ∈ before, joins b c = true
  · obtain ⟨b, rfl, hbc⟩ := hjoins
    exact ⟨_, .product hbc (.token hspelled (by rintro b ⟨⟩) hstop h)⟩
  · refine ⟨_, .token hspelled ?_ hstop h⟩
    rintro b hb d ⟨⟩
    rw [Bool.eq_false_iff]
    exact fun hbc => hjoins ⟨b, hb, hbc⟩

/-- The induction is on the length of the text. -/
theorem cut_or_offence (before : Option Char) (index : Nat) (text : List Char) :
    (∃ typed full : List (Lexeme ν), Cut before index text typed full) ∨
      ∃ err : ParseError ν,
        ofPlaced (placeAfter before index text) = .error err ∧
          Offence index text err := by
  match text with
  | [] => exact .inl ⟨[], [], .nil⟩
  | c :: rest =>
    cases hblank : Text.isBlank c with
    | true =>
        rcases cut_or_offence (some c) (index + 1) rest with
          ⟨typed, full, h⟩ | ⟨err, herr, hoffence⟩
        · exact .inl ⟨typed, full, .blank hblank h⟩
        · refine .inr ⟨err, ?_, hoffence.behind [c]⟩
          rw [ofPlaced_placeAfter_blank hblank, herr]
    | false =>
        rcases spelled_or_refused (ν := ν) hblank rest with
          ⟨token, run, after, htext, hspelled, hstop⟩ |
          ⟨reason, hreason, hrefused⟩
        · have hshorter : after.length ≤ rest.length := by
            have hpos := List.length_pos_of_ne_nil hspelled.ne_nil
            have hlength := congrArg List.length htext
            rw [List.length_cons, List.length_append] at hlength
            omega
          rcases cut_or_offence run.getLast? (index + run.length) after with
            ⟨typed, full, h⟩ | ⟨err, herr, hoffence⟩
          · obtain ⟨full', hcut⟩ := Cut.first before hspelled hstop h
            exact .inl ⟨_, full', htext ▸ hcut⟩
          · refine .inr ⟨err, error_of_none ?_ before, htext ▸ hoffence.behind run⟩
            rw [htext, ofPlaced_placeAfter_token hspelled (by rintro b ⟨⟩) hstop,
              herr, error_bind]
        · exact .inr ⟨_, error_of_none (hrefused index) before,
            ⟨index, rfl, Text.visibleAt_head hblank⟩, hreason⟩
termination_by text.length

end Total

end Lexeme

end SciCalc
