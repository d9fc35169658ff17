import SciCalc.Proofs.Expression.Whitespace

/-!
# Texts put together from phrases

A text that is written for a phrase of the grammar can be an operand of a
longer one. What is known of the trees of the operands is passed on by the rule
for their operator, so that a property of trees is followed along the text.
-/

namespace SciCalc

open Grammar Lexeme

variable {ν : Type} [Literal ν]

/-- An operator between two written texts, without blanks. -/
theorem Lexeme.Written.tight {c : Char} {op : BinaryOp}
    {left right : List Char} {tokens tokens' : List (Token ν)}
    (hc : Token.ofChar? (ν := ν) c = some (.operator op))
    (hleft : Written left tokens) (hright : Written right tokens') :
    Written (left ++ c :: right) (tokens ++ .operator op :: tokens') := by
  obtain ⟨hblank, hnumeric, halpha⟩ := Token.class_of_ofChar? hc
  have hopen : c ≠ '(' := by
    rintro rfl
    cases hc
  have hclose : c ≠ ')' := by
    rintro rfl
    cases hc
  have hback := (symbol hblank hnumeric halpha hc).append hright (by
    rintro b ⟨⟩ d -
    exact apart_of_left hnumeric halpha hclose)
  exact hleft.append hback (by
    rintro b - d ⟨⟩
    exact apart_of_right hnumeric halpha hopen)

/-- The text is written for a phrase that is nested no deeper than `depth` and
whose tree has the property `holds`. -/
def PhraseOf (holds : Expr ν → Prop) (level : Level) (depth : Nat)
    (text : List Char) : Prop :=
  ∃ (tokens : List (Token ν)) (e : Expr ν) (depth' : Nat),
    Written text tokens ∧ Derives level tokens e depth' ∧ depth' ≤ depth ∧
      holds e

namespace PhraseOf

variable {holds holdsLeft holdsRight : Expr ν → Prop}
variable {depth : Nat} {left right text : List Char} {c : Char}

/-- A phrase of one level is a phrase of every level that takes such phrases
over. -/
theorem lift {level level' : Level}
    (hlift : ∀ {tokens : List (Token ν)} {e : Expr ν} {depth' : Nat},
      Derives level tokens e depth' → Derives level' tokens e depth')
    (h : PhraseOf holds level depth text) :
    PhraseOf holds level' depth text := by
  obtain ⟨tokens, e, depth', hwritten, hderives, hrest⟩ := h
  exact ⟨tokens, e, depth', hwritten, hlift hderives, hrest⟩

theorem toUnary (h : PhraseOf holds .primary depth text) :
    PhraseOf holds .unary depth text :=
  h.lift .primary_toUnary

theorem toMultiplicative (h : PhraseOf holds .unary depth text) :
    PhraseOf holds .multiplicative depth text :=
  h.lift .ofUnary

theorem number {value : ν} (depth : Nat) (hne : text ≠ [])
    (hrun : ∀ c ∈ text, isNumeric c = true)
    (hread : Literal.read? text = some value) (h : holds (.number value)) :
    PhraseOf holds .primary depth text :=
  ⟨_, _, 0, .number hne hrun hread, .number _, Nat.zero_le _, h⟩

/-- No function has a name of one letter. -/
theorem letter (depth : Nat) (hletter : c.isAlpha = true)
    (h : holds (.identifier (String.ofList [c]))) :
    PhraseOf holds .primary depth [c] := by
  have hletters : ∀ d ∈ [c], d.isAlpha = true := by
    intro d hd
    rwa [List.mem_singleton.1 hd]
  exact ⟨_, _, 0, .identifier (List.cons_ne_nil _ _) hletters,
    .identifier (Elementary.ofName?_of_letter c), Nat.zero_le _, h⟩

theorem power (hleft : PhraseOf holdsLeft .primary (depth + 1) left)
    (hright : PhraseOf holdsRight .unary depth right)
    (hboth : ∀ base exponent, holdsLeft base → holdsRight exponent →
      holds (.binary .pow base exponent)) :
    PhraseOf holds .unary (depth + 1) (left ++ '^' :: right) := by
  obtain ⟨tokens, e, d, hwritten, hderives, hdepth, he⟩ := hleft
  obtain ⟨tokens', e', d', hwritten', hderives', hdepth', he'⟩ := hright
  exact ⟨_, _, _, .tight rfl hwritten hwritten',
    .ofPower (.power hderives hderives'), by omega, hboth e e' he he'⟩

theorem product {op : BinaryOp} (hop : op = .mul ∨ op = .div)
    (hc : Token.ofChar? (ν := ν) c = some (.operator op))
    (hleft : PhraseOf holdsLeft .multiplicative depth left)
    (hright : PhraseOf holdsRight .unary depth right)
    (hboth : ∀ a b, holdsLeft a → holdsRight b → holds (.binary op a b)) :
    PhraseOf holds .multiplicative depth (left ++ c :: right) := by
  obtain ⟨tokens, e, d, hwritten, hderives, hdepth, he⟩ := hleft
  obtain ⟨tokens', e', d', hwritten', hderives', hdepth', he'⟩ := hright
  exact ⟨_, _, _, .tight hc hwritten hwritten',
    .product hop hderives hderives', by omega, hboth e e' he he'⟩

/-- A phrase parses when it is not nested too deep. -/
theorem exists_parse (h : PhraseOf holds .multiplicative depth text)
    (hdepth : depth ≤ maxNesting) :
    ∃ e : Expr ν, parseChars text = .ok e ∧ holds e := by
  obtain ⟨tokens, e, depth', hwritten, hderives, hdepth', he⟩ := h
  obtain ⟨lexemes, htext, rfl⟩ := hwritten.ofText
  refine ⟨e, ?_, he⟩
  rw [parseChars_eq_parseLexemes htext hderives]
  exact parseLexemes_eq_ok_iff.2
    ⟨depth', .ofMultiplicative hderives, hdepth'.trans hdepth⟩

end PhraseOf

end SciCalc
