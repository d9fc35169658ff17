import SciCalc.Proofs.Expression.Lexing
import SciCalc.Proofs.Expression.ParserCompleteness

/-!
# The texts that parse

A text has a tree exactly when it can be cut into tokens and the tokens derive
the tree without nesting too deep. The grammar is unambiguous, and the two
checks that come before the cutting stop no text that would have a tree.
-/

namespace SciCalc

open SciCalc.Grammar SciCalc.Outcome SciCalc.Parser

variable {ν : Type}

theorem Parser.stops_nil (level : Level) : Stops (ν := ν) level [] := by
  rintro next ⟨⟩

/-- A list of tokens that derives a tree has no other outcome than that tree
or, without room for it, the report of too deep a nesting. -/
theorem fits_parseLexemes {lexemes : List (Lexeme ν)} {e : Expr ν} {depth : Nat}
    (h : Derives .additive (lexemes.map Lexeme.token) e depth) :
    Fits maxNesting depth (parseLexemes lexemes) (.ok e) := by
  have hfits := (handled_of_derives lexemes.getLast? h).fits
    maxNesting lexemes rfl (stops_nil .additive)
  rw [List.append_nil] at hfits
  exact hfits.bind_eq _ rfl

theorem parseLexemes_eq_ok_iff {lexemes : List (Lexeme ν)} {e : Expr ν} :
    parseLexemes lexemes = .ok e ↔
      ∃ depth, Derives .additive (lexemes.map Lexeme.token) e depth ∧
        depth ≤ maxNesting := by
  constructor
  · intro h
    obtain ⟨⟨tree, rest⟩, htree, hrest⟩ := bind_eq_ok_iff.1 h
    obtain ⟨taken, depth, htaken, hderives, hdepth⟩ :=
      additive_reads _ (inner_reads _ maxNesting) _ _ _ htree
    dsimp only at hrest
    split at hrest
    · cases hrest
      rw [List.append_nil] at htaken
      exact ⟨depth, htaken ▸ hderives, by omega⟩
    · cases hrest
  · rintro ⟨depth, hderives, hdepth⟩
    exact (fits_parseLexemes hderives).1 hdepth

/-- No list of tokens derives two trees at one level. -/
theorem Grammar.Derives.unique {level : Level} {tokens : List (Token ν)}
    {e e' : Expr ν} {depth depth' : Nat} (h : Derives level tokens e depth)
    (h' : Derives level tokens e' depth') : e = e' := by
  let lexemes : List (Lexeme ν) := tokens.map fun token => ⟨token, 0⟩
  have hlexemes : lexemes.map Lexeme.token = tokens := by
    simp [lexemes, Function.comp_def]
  have hparse := ((handled_of_derives none h).fits
    (max depth depth') lexemes hlexemes (stops_nil level)).1 (by omega)
  have hparse' := ((handled_of_derives none h').fits
    (max depth depth') lexemes hlexemes (stops_nil level)).1 (by omega)
  rw [hparse] at hparse'
  cases hparse'
  rfl

section Checks

variable [Literal ν] {text : List Char} {lexemes : List (Lexeme ν)}
variable {level : Level} {e : Expr ν} {depth : Nat}

theorem not_blank_of_derives (htext : Lexeme.ofText text = .ok lexemes)
    (h : Derives level (lexemes.map Lexeme.token) e depth) :
    text.all Text.isBlank = false := by
  rw [Bool.eq_false_iff]
  intro hblank
  have hplaced := Lexeme.ofPlaced_of_isBlank (ν := ν)
    (ImplicitProduct.isBlank_placeAfter (List.all_eq_true.1 hblank) none 0)
  have hnil : lexemes = [] := by
    have hboth := htext.symm.trans hplaced
    cases hboth
    rfl
  rw [hnil] at h
  exact h.ne_nil rfl

theorem unmatched_of_derives (htext : Lexeme.ofText text = .ok lexemes)
    (h : Derives level (lexemes.map Lexeme.token) e depth) :
    Brackets.unmatched text = none := by
  have hbalance := h.openBehind_brackets 0
  rw [Lexeme.openBehind_brackets htext] at hbalance
  exact Brackets.scan_eq_none_iff.2 hbalance

/-- A text whose tokens are a phrase passes both checks. -/
theorem parseChars_eq_parseLexemes (htext : Lexeme.ofText text = .ok lexemes)
    (h : Derives level (lexemes.map Lexeme.token) e depth) :
    parseChars (ν := ν) text = parseLexemes lexemes := by
  unfold parseChars
  rw [not_blank_of_derives htext h]
  simp [unmatched_of_derives htext h, htext]

end Checks

/-- A text that parses passed both checks and was cut into tokens. -/
theorem exists_lexemes_of_parseChars [Literal ν] {text : List Char}
    {e : Expr ν} (h : parseChars text = .ok e) :
    ∃ lexemes, Lexeme.ofText text = .ok lexemes ∧
      parseLexemes lexemes = .ok e := by
  unfold parseChars at h
  cases hblank : text.all Text.isBlank with
  | true => simp [hblank] at h
  | false =>
      cases hbrackets : Brackets.unmatched text with
      | some position => simp [hblank, hbrackets] at h
      | none =>
          simp only [hblank, hbrackets] at h
          exact bind_eq_ok_iff.1 h

/-- Parsing is sound and complete for the grammar with at most 200 nested
phrases. The grammar gives a list of tokens at most one tree, and the checks
for blank texts and unmatched brackets stop no text that has one. -/
theorem parse_eq_ok_iff_derives [Literal ν] :
    (∀ (text : String) (e : Expr ν), parse text = .ok e ↔
      ∃ lexemes depth, Lexeme.ofText text.toList = .ok lexemes ∧
        Derives .additive (lexemes.map Lexeme.token) e depth ∧
        depth ≤ 200) ∧
    (∀ (tokens : List (Token ν)) (e e' : Expr ν) (depth depth' : Nat),
      Derives .additive tokens e depth → Derives .additive tokens e' depth' →
        e = e') ∧
    (∀ (text : String) (lexemes : List (Lexeme ν)) (e : Expr ν) (depth : Nat),
      Lexeme.ofText text.toList = .ok lexemes →
      Derives .additive (lexemes.map Lexeme.token) e depth →
        text.toList.all Text.isBlank = false ∧
        Brackets.unmatched text.toList = none) := by
  refine ⟨fun text e => ⟨fun h => ?_, ?_⟩, ?_, ?_⟩
  · obtain ⟨lexemes, htext, hlexemes⟩ := exists_lexemes_of_parseChars h
    obtain ⟨depth, hderives, hdepth⟩ := parseLexemes_eq_ok_iff.1 hlexemes
    exact ⟨lexemes, depth, htext, hderives, hdepth⟩
  · rintro ⟨lexemes, depth, htext, hderives, hdepth⟩
    rw [parse, parseChars_eq_parseLexemes htext hderives]
    exact parseLexemes_eq_ok_iff.2 ⟨depth, hderives, hdepth⟩
  · intro tokens e e' depth depth' h h'
    exact h.unique h'
  · intro text lexemes e depth htext h
    exact ⟨not_blank_of_derives htext h, unmatched_of_derives htext h⟩

/-- A sign in front of a power is a sign of the power, two levels deep. -/
theorem parse_sign_of_power :
    let lexemes : List (Lexeme Float) :=
      [⟨.operator .sub, 0⟩, ⟨.identifier "sin", 1⟩, ⟨.leftParen, 4⟩,
        ⟨.identifier "x", 5⟩, ⟨.rightParen, 6⟩, ⟨.operator .pow, 7⟩,
        ⟨.identifier "y", 8⟩]
    let e : Expr Float := .neg (.binary .pow (.call "sin" [.identifier "x"])
      (.identifier "y"))
    Lexeme.ofText "-sin(x)^y".toList = .ok lexemes ∧
      Derives .additive (lexemes.map Lexeme.token) e 2 ∧
      parse "-sin(x)^y" = .ok e ∧
      (∀ e' depth, Derives .additive (lexemes.map Lexeme.token) e' depth →
        e' = e) ∧
      "-sin(x)^y".toList.all Text.isBlank = false ∧
      Brackets.unmatched "-sin(x)^y".toList = none := by
  intro lexemes e
  have htext : Lexeme.ofText "-sin(x)^y".toList = .ok lexemes := by cbv
  have hx : Derives (ν := Float) .primary [.identifier "x"]
      (.identifier "x") 0 := .identifier (by decide)
  have hy : Derives (ν := Float) .primary [.identifier "y"]
      (.identifier "y") 0 := .identifier (by decide)
  have hsin : Elementary.ofName? "sin" = some .sin := by decide
  have hcall := Derives.call hsin hx.primary_toUnary.unary_toAdditive
  have hpower := Derives.power hcall hy.primary_toUnary
  have htree := (Derives.neg (.ofPower hpower)).unary_toAdditive
  obtain ⟨hparse, hunique, hchecks⟩ := parse_eq_ok_iff_derives (ν := Float)
  exact ⟨htext, htree,
    (hparse "-sin(x)^y" e).2 ⟨lexemes, 2, htext, htree, by decide⟩,
    fun e' depth h => hunique _ e' e depth 2 h htree,
    hchecks "-sin(x)^y" lexemes e 2 htext htree⟩

end SciCalc
