import SciCalc.Proofs.Expression.Lexing

/-!
# Texts written piece by piece

A text is written for a list of tokens when no star is placed in it and it is
cut into these tokens. Written texts can be joined wherever their characters
keep apart, and a tree in full parentheses is joined in no other way.
-/

namespace SciCalc

open Outcome

variable {ν : Type}

namespace ImplicitProduct

/-- A text whose first character has the given index, without any stars. -/
def placeTyped (index : Nat) (text : List Char) : List Placed :=
  (text.zipIdx index).map fun (c, position) => ⟨c, position⟩

@[simp]
theorem placeTyped_nil (index : Nat) : placeTyped index [] = [] := rfl

@[simp]
theorem placeTyped_cons (index : Nat) (c : Char) (rest : List Char) :
    placeTyped index (c :: rest) =
      ⟨c, index⟩ :: placeTyped (index + 1) rest := rfl

theorem placeTyped_append (index : Nat) (before after : List Char) :
    placeTyped index (before ++ after) =
      placeTyped index before ++ placeTyped (index + before.length) after := by
  rw [placeTyped, List.zipIdx_append, List.map_append]
  rfl

@[simp]
theorem map_char_placeTyped (index : Nat) (text : List Char) :
    (placeTyped index text).map Placed.char = text := by
  induction text generalizing index with
  | nil => rfl
  | cons c rest ih => rw [placeTyped_cons, List.map_cons, ih]

/-- No two neighbours of the text are factors of a product. -/
def Quiet (text : List Char) : Prop :=
  text.IsChain fun b c => joins b c = false

theorem quiet_of_forall {text : List Char}
    (h : ∀ b ∈ text, ∀ c ∈ text, joins b c = false) : Quiet text := by
  apply List.isChain_iff_forall_rel_of_append_cons_cons.2
  rintro b c front back rfl
  exact h b (by simp) c (by simp)

/-- In a quiet text that does not join to the character in front of it there
are no stars. -/
theorem placeAfter_of_quiet {text : List Char} (hquiet : Quiet text)
    {before : Option Char}
    (hbefore : ∀ b ∈ before, ∀ c ∈ text.head?, joins b c = false)
    (index : Nat) : placeAfter before index text = placeTyped index text := by
  induction text generalizing before index with
  | nil => rfl
  | cons c rest ih =>
      have hneighbours : ∀ b ∈ some c, ∀ d ∈ rest.head?, joins b d = false := by
        rintro b ⟨⟩ d hd
        cases rest with
        | nil => cases hd
        | cons d' rest =>
            cases hd
            exact (List.isChain_cons_cons.1 hquiet).1
      have hrest := ih hquiet.tail hneighbours (index + 1)
      cases before with
      | none => simp [placeAfter, hrest]
      | some b =>
          have hb := hbefore b rfl c rfl
          simp [placeAfter, hrest, hb]

/-- A quiet text stays as it is. -/
theorem expand_of_quiet {text : List Char} (hquiet : Quiet text) :
    (place text).map Placed.char = text := by
  rw [place, placeAfter_of_quiet hquiet (by rintro b ⟨⟩), map_char_placeTyped]

end ImplicitProduct

namespace Lexeme

open ImplicitProduct

/-- The two characters may stand next to each other without forming a product
or a longer run. -/
def Apart (c d : Char) : Prop :=
  joins c d = false ∧ ¬(isNumeric c = true ∧ isNumeric d = true) ∧
    ¬(c.isAlpha = true ∧ d.isAlpha = true)

theorem apart_of_left {c d : Char} (hnumeric : isNumeric c = false)
    (halpha : c.isAlpha = false) (hclose : c ≠ ')') : Apart c d := by
  have hdigit : c.isDigit = false := by
    simp only [isNumeric, Bool.or_eq_false_iff] at hnumeric
    exact hnumeric.1
  refine ⟨by simp [joins, hdigit, halpha, hclose], ?_, ?_⟩
  · simp [hnumeric]
  · simp [halpha]

theorem apart_of_right {c d : Char} (hnumeric : isNumeric d = false)
    (halpha : d.isAlpha = false) (hopen : d ≠ '(') : Apart c d := by
  have hdigit : d.isDigit = false := by
    simp only [isNumeric, Bool.or_eq_false_iff] at hnumeric
    exact hnumeric.1
  refine ⟨by simp [joins, Char.isAlphanum, hdigit, halpha, hopen], ?_, ?_⟩
  · simp [hnumeric]
  · simp [halpha]

theorem apart_blank_right {c : Char} : Apart c ' ' :=
  apart_of_right (by decide) (by decide) (by decide)

theorem apart_blank_left {d : Char} : Apart ' ' d :=
  apart_of_left (by decide) (by decide) (by decide)

/-- No star comes between a name and the parenthesis of its call. -/
theorem apart_alpha_leftParen {c : Char} (halpha : c.isAlpha = true) :
    Apart c '(' := by
  have hdigit := Text.not_isDigit_of_isAlpha halpha
  have hclose := Text.ne_of_class halpha (show ')'.isAlpha = false by decide)
  refine ⟨by simp [joins, hdigit, hclose], ?_, ?_⟩
  · exact fun h => absurd h.2 (by decide)
  · exact fun h => absurd h.2 (by decide)

theorem quiet_of_isNumeric {text : List Char}
    (hrun : ∀ c ∈ text, isNumeric c = true) : Quiet text := by
  apply quiet_of_forall
  intro b hb c hc
  have hbalpha := not_isAlpha_of_isNumeric (hrun b hb)
  have hcalpha := not_isAlpha_of_isNumeric (hrun c hc)
  have hbclose := Text.ne_of_class (hrun b hb)
    (show isNumeric ')' = false by decide)
  have hcopen := Text.ne_of_class (hrun c hc)
    (show isNumeric '(' = false by decide)
  simp [joins, hbalpha, hcalpha, hbclose, hcopen]

theorem quiet_of_isAlpha {text : List Char}
    (hletters : ∀ c ∈ text, c.isAlpha = true) : Quiet text := by
  apply quiet_of_forall
  intro b hb c hc
  have hbdigit := Text.not_isDigit_of_isAlpha (hletters b hb)
  have hcdigit := Text.not_isDigit_of_isAlpha (hletters c hc)
  have hclose := Text.ne_of_class (hletters b hb)
    (show ')'.isAlpha = false by decide)
  simp [joins, hbdigit, hcdigit, hclose]

/-- No star is placed in the text, and it is cut into these tokens. -/
structure Written [Literal ν] (text : List Char) (tokens : List (Token ν)) :
    Prop where
  quiet : Quiet text
  lexemes : ∀ placed : List Placed, placed.map Placed.char = text →
    ∃ found, ofPlaced placed = .ok found ∧ found.map Lexeme.token = tokens

namespace Written

variable [Literal ν]

theorem ofText {text : List Char} {tokens : List (Token ν)}
    (h : Written text tokens) :
    ∃ found, Lexeme.ofText text = .ok found ∧
      found.map Lexeme.token = tokens :=
  h.lexemes (place text) (expand_of_quiet h.quiet)

/-- Written texts that keep apart can be joined. -/
theorem append {before after : List Char} {tokens tokens' : List (Token ν)}
    (hbefore : Written before tokens) (hafter : Written after tokens')
    (happart : ∀ c ∈ before.getLast?, ∀ d ∈ after.head?, Apart c d) :
    Written (before ++ after) (tokens ++ tokens') where
  quiet := List.isChain_append.2
    ⟨hbefore.quiet, hafter.quiet, fun c hc d hd => (happart c hc d hd).1⟩
  lexemes := by
    intro placed hplaced
    obtain ⟨front, back, rfl, rfl, rfl⟩ := List.map_eq_append_iff.1 hplaced
    obtain ⟨found, hfound, rfl⟩ := hbefore.lexemes front rfl
    obtain ⟨found', hfound', rfl⟩ := hafter.lexemes back rfl
    refine ⟨found ++ found', ?_, List.map_append⟩
    rw [ofPlaced_append fun c hc d hd => (happart c hc d hd).2, hfound,
      hfound']
    rfl

theorem blank : Written (ν := ν) [' '] [] where
  quiet := List.isChain_singleton _
  lexemes := by
    intro placed hplaced
    obtain ⟨⟨c, position⟩, rfl, rfl⟩ := List.map_eq_singleton_iff.1 hplaced
    have hblank : Text.isBlank ' ' = true := by decide
    exact ⟨[], by rw [ofPlaced_blank hblank, ofPlaced], rfl⟩

/-- A character that is a token by itself. -/
theorem symbol {c : Char} {token : Token ν}
    (hblank : Text.isBlank c = false) (hnumeric : isNumeric c = false)
    (halpha : c.isAlpha = false) (htoken : Token.ofChar? c = some token) :
    Written [c] [token] where
  quiet := List.isChain_singleton _
  lexemes := by
    intro placed hplaced
    obtain ⟨⟨c, position⟩, rfl, rfl⟩ := List.map_eq_singleton_iff.1 hplaced
    refine ⟨[⟨token, position⟩], ?_, rfl⟩
    rw [ofPlaced_symbol hblank hnumeric halpha htoken, ofPlaced]
    rfl

/-- A run of letters. -/
theorem identifier {text : List Char} (hne : text ≠ [])
    (hletters : ∀ c ∈ text, c.isAlpha = true) :
    Written (ν := ν) text [.identifier (String.ofList text)] where
  quiet := quiet_of_isAlpha hletters
  lexemes := by
    intro placed hplaced
    obtain ⟨c, chars, rfl⟩ := List.exists_cons_of_ne_nil hne
    obtain ⟨p, rest, rfl, rfl, rfl⟩ := List.map_eq_cons_iff.1 hplaced
    rw [List.forall_mem_cons, List.forall_mem_map] at hletters
    have htake : rest.takeWhile (fun q => q.char.isAlpha) = rest :=
      List.takeWhile_eq_self_iff.2 hletters.2
    have hdrop : rest.dropWhile (fun q => q.char.isAlpha) = [] :=
      List.dropWhile_eq_nil_iff.2 hletters.2
    refine ⟨[⟨.identifier (String.ofList (p.char :: rest.map Placed.char)),
      p.position⟩], ?_, rfl⟩
    rw [ofPlaced_identifier hletters.1, htake, hdrop, ofPlaced]
    rfl

/-- A run of digits and points that reads as a number. -/
theorem number {text : List Char} {value : ν} (hne : text ≠ [])
    (hrun : ∀ c ∈ text, isNumeric c = true)
    (hread : Literal.read? text = some value) :
    Written text [.number value] where
  quiet := quiet_of_isNumeric hrun
  lexemes := by
    intro placed hplaced
    obtain ⟨c, chars, rfl⟩ := List.exists_cons_of_ne_nil hne
    obtain ⟨p, rest, rfl, rfl, rfl⟩ := List.map_eq_cons_iff.1 hplaced
    rw [List.forall_mem_cons, List.forall_mem_map] at hrun
    have htake : rest.takeWhile (fun q => isNumeric q.char) = rest :=
      List.takeWhile_eq_self_iff.2 hrun.2
    have hdrop : rest.dropWhile (fun q => isNumeric q.char) = [] :=
      List.dropWhile_eq_nil_iff.2 hrun.2
    refine ⟨[⟨.number value, p.position⟩], ?_, rfl⟩
    rw [ofPlaced_number hrun.1 (by rw [htake]; exact hread), hdrop, ofPlaced]
    rfl

/-- A written text in parentheses. -/
theorem parenthesised {text : List Char} {tokens : List (Token ν)}
    (h : Written text tokens) :
    Written ('(' :: (text ++ [')']))
      (.leftParen :: (tokens ++ [.rightParen])) := by
  have hopen : Written (ν := ν) ['('] [.leftParen] :=
    symbol (by decide) (by decide) (by decide) rfl
  have hclose : Written (ν := ν) [')'] [.rightParen] :=
    symbol (by decide) (by decide) (by decide) rfl
  have hinside := h.append hclose (by
    rintro c - d ⟨⟩
    exact apart_of_right (by decide) (by decide) (by decide))
  exact hopen.append hinside (by
    rintro c ⟨⟩ d -
    exact apart_of_left (by decide) (by decide) (by decide))

/-- A minus sign in front of a written text. -/
theorem negated {text : List Char} {tokens : List (Token ν)}
    (h : Written text tokens) :
    Written ('-' :: text) (.operator .sub :: tokens) := by
  have hminus : Written (ν := ν) ['-'] [.operator .sub] :=
    symbol (by decide) (by decide) (by decide) rfl
  exact hminus.append h (by
    rintro c ⟨⟩ d -
    exact apart_of_left (by decide) (by decide) (by decide))

theorem operator (op : BinaryOp) :
    Written (ν := ν) (' ' :: (op.symbol.toList ++ [' '])) [.operator op] := by
  have hsymbol : Written (ν := ν) op.symbol.toList [.operator op] := by
    cases op <;> exact symbol (by decide) (by decide) (by decide) rfl
  have hbehind := hsymbol.append blank (by
    rintro c - d ⟨⟩
    exact apart_blank_right)
  exact blank.append hbehind (by
    rintro c ⟨⟩ d -
    exact apart_blank_left)

/-- An operator between two written texts, with a blank on each side. -/
theorem operation {left right : List Char} {tokens tokens' : List (Token ν)}
    (hleft : Written left tokens) (op : BinaryOp)
    (hright : Written right tokens') :
    Written (left ++ ' ' :: (op.symbol.toList ++ [' ']) ++ right)
      (tokens ++ .operator op :: tokens') := by
  have hfront := hleft.append (operator op) (by
    rintro c - d ⟨⟩
    exact apart_blank_right)
  have hwhole := hfront.append hright (by
    intro c hc d _
    have hblank : c = ' ' := by
      cases op <;> simpa [BinaryOp.symbol, eq_comm] using hc
    rw [hblank]
    exact apart_blank_left)
  simpa using hwhole

/-- The call of a name. -/
theorem called {name text : List Char} {tokens : List (Token ν)}
    (hne : name ≠ []) (hletters : ∀ c ∈ name, c.isAlpha = true)
    (h : Written text tokens) :
    Written (name ++ '(' :: (text ++ [')']))
      (.identifier (String.ofList name) :: .leftParen ::
        (tokens ++ [.rightParen])) :=
  (identifier hne hletters).append h.parenthesised (by
    rintro c hc d ⟨⟩
    exact apart_alpha_leftParen (hletters c (List.mem_of_getLast? hc)))

end Written

end Lexeme

end SciCalc
