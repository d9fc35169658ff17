import SciCalc.Proofs.Expression.Acceptance
import SciCalc.Proofs.Expression.ErrorPosition

/-!
# White space in texts that parse

In a phrase no operand stands directly behind another, except the parenthesis
of a call behind its name. So when the white space of a text that parses is
taken out, no two tokens run into one and no star is placed that was not there
before.
-/

namespace SciCalc

open SciCalc.Outcome SciCalc.ImplicitProduct

variable {ν : Type}

/-! ## Neighbours in a phrase -/

/-- The tokens may be neighbours in a phrase: the first ends no operand, or
the second begins none, or the two begin a call. -/
def Token.Adjacent (first second : Token ν) : Prop :=
  first.closes = true → second.opens false = true →
    (∃ name, first = .identifier name) ∧ second = .leftParen

theorem Token.opens_operator (op : BinaryOp) :
    (Token.operator (ν := ν) op).opens false = false := by
  cases op <;> rfl

namespace Grammar

/-- Two phrases, or parts of them, with a token between them that neither ends
nor begins an operand. -/
theorem isChain_adjacent_between {before after : List (Token ν)}
    {middle : Token ν} (hcloses : middle.closes = false)
    (hopens : middle.opens false = false)
    (hbefore : before.IsChain Token.Adjacent)
    (hafter : after.IsChain Token.Adjacent) :
    (before ++ middle :: after).IsChain Token.Adjacent := by
  apply List.isChain_append.2
  refine ⟨hbefore, List.isChain_cons.2 ⟨?_, hafter⟩, ?_⟩
  · intro second _ hfirst
    rw [hcloses] at hfirst
    cases hfirst
  · rintro first _ second ⟨⟩ _ hsecond
    rw [hopens] at hsecond
    cases hsecond

/-- Parentheses around a phrase. -/
theorem isChain_adjacent_parenthesised {tokens : List (Token ν)}
    (h : tokens.IsChain Token.Adjacent) :
    (.leftParen :: (tokens ++ [.rightParen])).IsChain Token.Adjacent := by
  apply List.isChain_cons.2
  constructor
  · intro second _ hfirst
    cases hfirst
  · apply List.isChain_append.2
    refine ⟨h, List.isChain_singleton _, ?_⟩
    rintro first _ second ⟨⟩ _ hsecond
    cases hsecond

theorem Derives.isChain_adjacent {level : Level} {tokens : List (Token ν)}
    {e : Expr ν} {depth : Nat} (h : Derives level tokens e depth) :
    tokens.IsChain Token.Adjacent := by
  induction h with
  | number value => exact List.isChain_singleton _
  | identifier hname => exact List.isChain_singleton _
  | @call name f tokens argument depth hname hargument ih =>
      apply List.isChain_cons.2
      refine ⟨?_, isChain_adjacent_parenthesised ih⟩
      rintro second ⟨⟩ _ _
      exact ⟨⟨name, rfl⟩, rfl⟩
  | parenthesised hinside ih => exact isChain_adjacent_parenthesised ih
  | ofPrimary h ih => exact ih
  | power hbase hexponent ihBase ihExponent =>
      exact isChain_adjacent_between rfl rfl ihBase ihExponent
  | ofPower h ih => exact ih
  | neg hoperand ih =>
      exact isChain_adjacent_between rfl rfl List.isChain_nil ih
  | ofUnary h ih => exact ih
  | product hop hleft hright ihLeft ihRight =>
      exact isChain_adjacent_between rfl (Token.opens_operator _) ihLeft ihRight
  | ofMultiplicative h ih => exact ih
  | sum hop hleft hright ihLeft ihRight =>
      exact isChain_adjacent_between rfl (Token.opens_operator _) ihLeft ihRight

end Grammar

/-! ## Neighbours in a text -/

namespace Token.Spelled

variable [Literal ν] {run run' : List Char} {token token' : Token ν}

theorem isAlpha_of_identifier {name : String}
    (h : (Token.identifier (ν := ν) name).Spelled run) :
    ∀ c ∈ run, c.isAlpha = true := by
  cases h with
  | identifier hne hrun => exact hrun
  | symbol htoken =>
      unfold Token.ofChar? at htoken
      split at htoken <;> cases htoken

/-- Stars are only placed in front of the beginning of an operand. -/
theorem opens_of_joins (h : token.Spelled run) {b c : Char}
    (hc : c ∈ run.head?) (hjoins : joins b c = true) :
    token.opens false = true := by
  cases h with
  | number hne hrun hread => rfl
  | identifier hne hrun => rfl
  | symbol htoken =>
      cases hc
      by_cases hopen : c = '('
      · subst hopen
        cases htoken
        rfl
      · obtain ⟨-, hnumeric, halpha⟩ := Token.class_of_ofChar? htoken
        have happart := Lexeme.apart_of_right (c := b) hnumeric halpha hopen
        rw [happart.1] at hjoins
        cases hjoins

/-- Between neighbours of a phrase no star is placed. -/
theorem not_joins_of_adjacent (h : token.Spelled run)
    (h' : token'.Spelled run') (hadjacent : token.Adjacent token') :
    ∀ b ∈ run.getLast?, ∀ c ∈ run'.head?, joins b c = false := by
  intro b hb c hc
  rw [Bool.eq_false_iff]
  intro hjoins
  obtain ⟨⟨name, rfl⟩, rfl⟩ :=
    hadjacent (h.closes_of_joins hb hjoins) (h'.opens_of_joins hc hjoins)
  have halpha := h.isAlpha_of_identifier b (List.mem_of_getLast? hb)
  rw [h'.symbol?_eq '(' rfl] at hc
  cases hc
  rw [(Lexeme.apart_alpha_leftParen halpha).1] at hjoins
  cases hjoins

/-- Neighbours of a phrase do not run into one. -/
theorem not_continues_of_adjacent (h' : token'.Spelled run')
    (hadjacent : token.Adjacent token') :
    ∀ c ∈ run'.head?, token.continues c = false := by
  intro c hc
  rw [Bool.eq_false_iff]
  intro hcontinues
  have hcloses : token.closes = true := by
    cases token <;> first | rfl | cases hcontinues
  cases h' with
  | number hne hrun hread => cases (hadjacent hcloses rfl).2
  | identifier hne hrun => cases (hadjacent hcloses rfl).2
  | symbol htoken =>
      cases hc
      obtain ⟨-, hnumeric, halpha⟩ := Token.class_of_ofChar? htoken
      cases token <;> simp_all [Token.continues]

end Token.Spelled

/-! ## Taking out the white space -/

namespace Text

theorem strip_cons_blank {c : Char} (h : isBlank c = true) (rest : List Char) :
    strip (c :: rest) = strip rest := by
  rw [strip, List.filter_cons_of_neg (by simp [h])]
  rfl

theorem strip_cons {c : Char} (h : isBlank c = false) (rest : List Char) :
    strip (c :: rest) = c :: strip rest := by
  rw [strip, List.filter_cons_of_pos (by simp [h])]
  rfl

theorem strip_append {run : List Char} (h : ∀ c ∈ run, isBlank c = false)
    (rest : List Char) : strip (run ++ rest) = run ++ strip rest := by
  have hrun : run.filter (fun c => !isBlank c) = run := by
    apply List.filter_eq_self.2
    intro c hc
    simp [h c hc]
  rw [strip, List.filter_append, hrun]
  rfl

end Text

namespace Lexeme.Cut

variable [Literal ν] {before : Option Char} {index : Nat} {text : List Char}
variable {typed full : List (Lexeme ν)}

/-- Behind white space the first character that is not blank begins the first
token. -/
theorem head_of_blank (h : Cut before index text typed full)
    (hbefore : ∀ b ∈ before, Text.isBlank b = true) :
    ∀ c ∈ (Text.strip text).head?, ∃ l rest run, full = l :: rest ∧
      l.token.Spelled run ∧ c ∈ run.head? := by
  induction h with
  | nil => simp [Text.strip]
  | blank hblank h ih =>
      rw [Text.strip_cons_blank hblank]
      apply ih
      rintro b ⟨⟩
      exact hblank
  | product hjoins h ih =>
      rw [joins_of_blank (hbefore _ rfl)] at hjoins
      cases hjoins
  | @token before index run rest token typed full hspelled hfree hstop h ih =>
      intro c hc
      rw [Text.strip_append hspelled.not_isBlank,
        List.head?_append_of_ne_nil _ hspelled.ne_nil] at hc
      exact ⟨_, _, run, rfl, hspelled, hc⟩

/-- The first character that is not blank is the very first one, or it begins
the first token. -/
theorem head_strip (h : Cut before index text typed full) :
    ∀ c ∈ (Text.strip text).head?, c ∈ text.head? ∨
      ∃ l rest run, full = l :: rest ∧ l.token.Spelled run ∧ c ∈ run.head? := by
  intro c hc
  cases h with
  | nil => cases hc
  | blank hblank h =>
      rw [Text.strip_cons_blank hblank] at hc
      right
      apply h.head_of_blank _ c hc
      rintro b ⟨⟩
      exact hblank
  | product hjoins h =>
      rw [Text.strip_cons (not_isBlank_of_joins hjoins)] at hc
      exact .inl hc
  | @token before index run rest token typed full hspelled hfree hstop h =>
      left
      rw [Text.strip_append hspelled.not_isBlank,
        List.head?_append_of_ne_nil _ hspelled.ne_nil] at hc
      rwa [List.head?_append_of_ne_nil _ hspelled.ne_nil]

/-- The character ends a token that may stand in front of these. -/
def Ends (b : Char) (tokens : List (Token ν)) : Prop :=
  ∃ token run, b ∈ run.getLast? ∧ token.Spelled run ∧
    (token :: tokens).IsChain Token.Adjacent

/-- The text without its white space is cut into the same tokens when their
neighbours are those of a phrase. The character in front is the same one; or
it was blank, and now it is the end of the token before. -/
theorem strip (h : Cut before index text typed full)
    (hchain : (full.map Lexeme.token).IsChain Token.Adjacent)
    {before' : Option Char}
    (hsame : before' = before ∨ ∀ b ∈ before, Text.isBlank b = true)
    (hends : ∀ b ∈ before', Ends b (full.map Lexeme.token)) (index' : Nat) :
    ∃ typed' full' : List (Lexeme ν),
      Cut before' index' (Text.strip text) typed' full' ∧
        full'.map Lexeme.token = full.map Lexeme.token := by
  induction h generalizing before' index' with
  | nil => exact ⟨[], [], .nil, rfl⟩
  | blank hblank h ih =>
      rw [Text.strip_cons_blank hblank]
      apply ih hchain _ hends
      right
      rintro b ⟨⟩
      exact hblank
  | @product b index c rest typed full hjoins h ih =>
      have hvisible := not_isBlank_of_joins hjoins
      rcases hsame with rfl | hblank
      · have hnone : (none : Option Char) = none ∨
            ∀ b ∈ (none : Option Char), Text.isBlank b = true := .inl rfl
        obtain ⟨typed', full', hcut, htokens⟩ :=
          ih hchain.tail hnone (by rintro b ⟨⟩) index'
        rw [Text.strip_cons hvisible] at hcut ⊢
        refine ⟨typed', _, .product hjoins hcut, ?_⟩
        rw [List.map_cons, List.map_cons, htokens]
      · rw [joins_of_blank (hblank b rfl)] at hjoins
        cases hjoins
  | @token before index run rest token typed full hspelled hfree hstop h ih =>
      have hends' : ∀ b ∈ run.getLast?, Ends b (full.map Lexeme.token) :=
        fun b hb => ⟨token, run, hb, hspelled, hchain⟩
      obtain ⟨typed', full', hcut, htokens⟩ :=
        ih hchain.tail (.inl rfl) hends' (index' + run.length)
      -- no new star in front of the run
      have hfree' : ∀ b ∈ before', ∀ c ∈ run.head?, joins b c = false := by
        rcases hsame with rfl | hblank
        · exact hfree
        · intro b hb
          obtain ⟨token', run', hb', hspelled', hchain'⟩ := hends b hb
          exact hspelled'.not_joins_of_adjacent hspelled
            (List.isChain_cons_cons.1 hchain').1 b hb'
      -- and nothing new that goes on with it
      have hstop' : ∀ c ∈ (Text.strip rest).head?, token.continues c = false := by
        intro c hc
        rcases h.head_strip c hc with hc | ⟨l, others, run', rfl, hl, hc⟩
        · exact hstop c hc
        · exact hl.not_continues_of_adjacent
            (List.isChain_cons_cons.1 hchain).1 c hc
      rw [Text.strip_append hspelled.not_isBlank]
      refine ⟨_, _, .token hspelled hfree' hstop' hcut, ?_⟩
      rw [List.map_cons, List.map_cons, htokens]

end Lexeme.Cut

section Parsing

variable [Literal ν] {text : List Char} {e : Expr ν}

/-- A text that parses is cut into the tokens of a phrase. -/
theorem exists_cut_of_parseChars (h : parseChars text = .ok e) :
    ∃ (typed full : List (Lexeme ν)) (depth : Nat),
      Lexeme.Cut none 0 text typed full ∧
        Grammar.Derives .additive (full.map Lexeme.token) e depth ∧
        depth ≤ maxNesting := by
  obtain ⟨lexemes, htext, hlexemes⟩ := exists_lexemes_of_parseChars h
  obtain ⟨depth, hderives, hdepth⟩ := parseLexemes_eq_ok_iff.1 hlexemes
  rcases Lexeme.cut_or_offence (ν := ν) none 0 text with
    ⟨typed, full, hcut⟩ | ⟨err, herr, -⟩
  · have hfull := hcut.ofPlaced_placeAfter.symm.trans htext
    cases hfull
    exact ⟨typed, lexemes, depth, hcut, hderives, hdepth⟩
  · cases herr.symm.trans htext

theorem parseChars_of_cut {typed full : List (Lexeme ν)} {depth : Nat}
    (hcut : Lexeme.Cut none 0 text typed full)
    (hderives : Grammar.Derives .additive (full.map Lexeme.token) e depth)
    (hdepth : depth ≤ maxNesting) : parseChars text = .ok e := by
  rw [parseChars_eq_parseLexemes hcut.ofPlaced_placeAfter hderives]
  exact parseLexemes_eq_ok_iff.2 ⟨depth, hderives, hdepth⟩

theorem parseChars_strip (h : parseChars text = .ok e) :
    parseChars (Text.strip text) = .ok e := by
  obtain ⟨typed, full, depth, hcut, hderives, hdepth⟩ :=
    exists_cut_of_parseChars h
  obtain ⟨typed', full', hcut', htokens⟩ :=
    hcut.strip hderives.isChain_adjacent (.inl rfl) (by rintro b ⟨⟩) 0
  exact parseChars_of_cut hcut' (htokens ▸ hderives) hdepth

end Parsing

/-- No function has a name of one letter. -/
theorem Elementary.ofName?_of_letter (c : Char) :
    Elementary.ofName? (String.ofList [c]) = none := by
  apply List.find?_eq_none.2
  intro f _ hname
  have hlength := congrArg String.length (beq_iff_eq.1 hname)
  rw [String.length_ofList] at hlength
  cases f <;> cases hlength

section Factors

variable [Literal ν] {d b c : Char} {run : List Char} {value : ν}
variable (hdigit : d.isDigit = true) (hletter : c.isAlpha = true)
variable (hread : Literal.read? [d] = some value)

include hdigit hread in
theorem spelled_digit : (Token.number value).Spelled [d] := by
  apply Token.Spelled.number (List.cons_ne_nil _ _) _ hread
  intro c hc
  rw [List.mem_singleton.1 hc, Lexeme.isNumeric, hdigit, Bool.true_or]

include hletter in
theorem spelled_letter :
    (Token.identifier (ν := ν) (String.ofList [c])).Spelled [c] := by
  apply Token.Spelled.identifier (List.cons_ne_nil _ _)
  intro d hd
  rwa [List.mem_singleton.1 hd]

include hdigit hletter in
/-- Side by side a number that ends in a digit and a letter are a product. -/
theorem parseChars_number_letter (hspelled : (Token.number value).Spelled run)
    (hlast : run.getLast? = some d) :
    parseChars (run ++ [c]) = .ok (Expr.binary .mul (.number value)
      (.identifier (String.ofList [c]))) := by
  have hjoins : joins d c = true := by simp [joins, hdigit, hletter]
  have hback : Lexeme.Cut (ν := ν) (some d) (0 + run.length) ([c] ++ []) _ _ :=
    .product hjoins (.token (spelled_letter hletter) (by rintro b ⟨⟩)
      (by rintro c ⟨⟩) .nil)
  rw [← hlast] at hback
  have hcut : Lexeme.Cut none 0 (run ++ ([c] ++ [])) _ _ :=
    .token hspelled (by rintro b ⟨⟩)
      (by rintro c ⟨⟩; exact Lexeme.not_isNumeric_of_isAlpha hletter) hback
  apply parseChars_of_cut hcut _ (Nat.zero_le _)
  exact .ofMultiplicative (.product (.inl rfl)
    (.ofUnary (Grammar.Derives.number value).primary_toUnary)
    (Grammar.Derives.identifier
      (Elementary.ofName?_of_letter c)).primary_toUnary)

include hdigit hletter hread

theorem parseChars_digit_letter :
    parseChars [d, c] = .ok (Expr.binary .mul (.number value)
      (.identifier (String.ofList [c]))) :=
  parseChars_number_letter hdigit hletter (spelled_digit hdigit hread) rfl

/-- With white space between them they are two operands. -/
theorem parseChars_digit_blank_letter (hblank : Text.isBlank b = true) :
    ∃ err : ParseError ν, parseChars [d, b, c] = .error err := by
  cases hparse : parseChars (ν := ν) [d, b, c] with
  | error err => exact ⟨err, rfl⟩
  | ok e =>
      have hnumeric := Lexeme.not_isNumeric_of_isBlank hblank
      have hcut : Lexeme.Cut none 0 ([d] ++ b :: ([c] ++ [])) _ _ :=
        .token (spelled_digit hdigit hread) (by rintro b ⟨⟩)
          (by rintro c ⟨⟩; exact hnumeric)
          (.blank hblank (.token (spelled_letter hletter)
            (by rintro b ⟨⟩ c -; exact joins_of_blank hblank)
            (by rintro c ⟨⟩) .nil))
      obtain ⟨typed, full, depth, hcut', hderives, -⟩ :=
        exists_cut_of_parseChars hparse
      cases hcut.ofPlaced_placeAfter.symm.trans hcut'.ofPlaced_placeAfter
      have hadjacent := (List.isChain_cons_cons.1 hderives.isChain_adjacent).1
      cases (hadjacent rfl rfl).2

end Factors

/-- Taking out the white space of a text that parses does not change its tree,
so that texts that differ in white space only have one tree at most. A digit,
white space and a letter do not parse, but without the white space they do. -/
theorem parse_strip [Literal ν] :
    (∀ (text : String) (e : Expr ν), parse text = .ok e →
      parse (String.ofList (Text.strip text.toList)) = .ok e) ∧
    (∀ (text text' : String) (e e' : Expr ν),
      Text.strip text.toList = Text.strip text'.toList →
      parse text = .ok e → parse text' = .ok e' → e = e') ∧
    (∀ (d b c : Char) (value : ν), d.isDigit = true → Text.isBlank b = true →
      c.isAlpha = true → Literal.read? [d] = some value →
        (∃ err : ParseError ν, parse (String.ofList [d, b, c]) = .error err) ∧
        parse (String.ofList (Text.strip [d, b, c])) = .ok (.binary .mul
          (.number value) (.identifier (String.ofList [c])))) := by
  simp only [parse, String.toList_ofList]
  refine ⟨fun text e => parseChars_strip, ?_, ?_⟩
  · intro text text' e e' hstrip h h'
    have hboth := parseChars_strip h
    rw [hstrip, parseChars_strip h'] at hboth
    cases hboth
    rfl
  · intro d b c value hdigit hblank hletter hread
    have hd := (spelled_digit hdigit hread).not_isBlank d List.mem_cons_self
    have hc : Text.isBlank c = false :=
      (spelled_letter (ν := ν) hletter).not_isBlank c List.mem_cons_self
    rw [Text.strip_cons hd, Text.strip_cons_blank hblank, Text.strip_cons hc]
    exact ⟨parseChars_digit_blank_letter hdigit hletter hread hblank,
      parseChars_digit_letter hdigit hletter hread⟩

/-- A call with white space everywhere and one without it, and a product that
white space takes apart. -/
theorem parse_strip_call_and_factors :
    let e : Expr Float := .neg (.call "sin" [.identifier "x"])
    parse (String.ofList (Text.strip " - sin ( x )\n".toList)) = .ok e ∧
    (∀ e', parse "-sin(x)" = .ok e' → e = e') ∧
    (∃ err : ParseError Float, parse "2 x" = .error err) ∧
    parse "2x" = .ok (.binary .mul (.number (2 : Float)) (.identifier "x")) := by
  intro e
  obtain ⟨hstrip, hunique, hglued⟩ := parse_strip (ν := Float)
  have hparse : parse " - sin ( x )\n" = .ok e := by cbv
  obtain ⟨hrejected, haccepted⟩ := hglued '2' ' ' 'x' 2 (by decide)
    (by decide) (by decide) (by decide +kernel)
  exact ⟨hstrip _ e hparse,
    fun e' => hunique " - sin ( x )\n" "-sin(x)" e e' (by decide) hparse,
    hrejected, haccepted⟩

end SciCalc
