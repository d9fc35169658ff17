import SciCalc.Proofs.Expression.BracketMatching
import SciCalc.Proofs.Expression.ErrorPosition
import SciCalc.Proofs.Text.Beginning

/-!
# Where the tokens can run out

The tokens that are left always close the brackets that are open. So inside a
bracket there is a token left, and outside the tokens can only run out behind an
operator. The parser fails then with a reason about a token of the text, and
never because the text is empty, ends too early or has unmatched brackets: the
checks that come first have seen to that.
-/

namespace SciCalc

open SciCalc.Brackets SciCalc.Outcome SciCalc.Parser SciCalc.Text

variable {ν : Type}

/-! ## Reasons -/

/-- The reason is about a piece of the text, and not about the text as a whole. -/
def ParseReason.isLocal : ParseReason ν → Bool
  | .empty | .unbalanced | .unexpectedEnd | .stated _ => false
  | _ => true

/-- The error has such a reason. -/
def ParseError.IsLocal (err : ParseError ν) : Prop :=
  err.reason.isLocal = true

/-! ## Tokens that are left -/

/-- The tokens are what is left of a text with this last token, and they close
the brackets that are open. -/
structure Remains (last : Option (Lexeme ν)) (opened : Nat)
    (tokens : List (Lexeme ν)) : Prop where
  closes : openBehind opened
    ((tokens.map Lexeme.token).filterMap Token.bracket?) = some 0
  ends : ∀ final ∈ tokens.getLast?, last = some final

/-- An operand is due. It can be missing at the end of the text, but then the
text ends with an operator. -/
structure Expects (last : Option (Lexeme ν)) (opened : Nat)
    (tokens : List (Lexeme ν)) : Prop extends Remains last opened tokens where
  operator : tokens = [] →
    ∃ final, last = some final ∧ final.token.isOperator = true

namespace Remains

variable {last : Option (Lexeme ν)} {opened position : Nat}
variable {tokens rest : List (Lexeme ν)} {l : Lexeme ν}

theorem ends_tail (h : Remains last opened (l :: rest)) :
    ∀ final ∈ rest.getLast?, last = some final := by
  intro final hfinal
  apply h.ends
  rw [List.getLast?_cons, Option.mem_def.1 hfinal]
  rfl

theorem tail (h : Remains last opened (l :: rest))
    (hplain : l.token.bracket? = none) : Remains last opened rest where
  closes := by
    have hcloses := h.closes
    rwa [List.map_cons, List.filterMap_cons_none hplain] at hcloses
  ends := h.ends_tail

theorem opening (h : Remains last opened (⟨.leftParen, position⟩ :: rest)) :
    Remains last (opened + 1) rest where
  closes := h.closes
  ends := h.ends_tail

theorem closing
    (h : Remains last (opened + 1) (⟨.rightParen, position⟩ :: rest)) :
    Remains last opened rest where
  closes := h.closes
  ends := h.ends_tail

/-- Inside a bracket there is a token left. -/
theorem ne_nil (h : Remains last (opened + 1) tokens) : tokens ≠ [] := by
  rintro rfl
  cases h.closes

theorem expects (h : Remains last (opened + 1) tokens) :
    Expects last (opened + 1) tokens where
  toRemains := h
  operator hnil := absurd hnil h.ne_nil

theorem expects_behind (h : Remains last opened (l :: rest)) {op : BinaryOp}
    (hop : l.token = .operator op) : Expects last opened rest where
  toRemains := h.tail (by rw [hop]; rfl)
  operator := by
    rintro rfl
    exact ⟨l, h.ends l rfl, by rw [hop]; rfl⟩

end Remains

/-! ## Parsers -/

namespace Parser

/-- Where an operand is due, the parser takes as many closing brackets as opening
ones, or it fails with a local reason. -/
def Contained (last : Option (Lexeme ν)) (parser : Parser ν) : Prop :=
  ∀ ⦃opened tokens⦄, Expects last opened tokens →
    Meets ParseError.IsLocal (fun outcome => Remains last opened outcome.2)
      (parser tokens)

/-- Both parsers of the next level are contained. -/
structure Inner.Contained (last : Option (Lexeme ν)) (inner : Inner ν) :
    Prop where
  unary : ∀ position, Parser.Contained last (inner.unary position)
  additive : ∀ position, Parser.Contained last (inner.additive position)

variable {last : Option (Lexeme ν)} {opened : Nat} {tokens : List (Lexeme ν)}

theorem missingOperand_isLocal (h : Expects last opened tokens) :
    (missingOperand last tokens).IsLocal := by
  cases tokens with
  | cons found rest => rfl
  | nil =>
      obtain ⟨final, rfl, hoperator⟩ := h.operator rfl
      simp only [missingOperand, hoperator, if_true]
      rfl

theorem closing_contained (h : Remains last (opened + 1) tokens)
    (position : Nat) :
    Meets ParseError.IsLocal (Remains last opened) (closing position tokens) := by
  unfold closing
  split
  · exact h.closing
  · rfl
  · exact absurd rfl h.ne_nil

section Arguments

variable {argument : Parser ν} (hargument : Contained last argument)

include hargument

theorem argumentsFrom_contained (rounds : Nat)
    (h : Remains last (opened + 1) tokens) :
    Meets ParseError.IsLocal
      (fun outcome => Remains last (opened + 1) outcome.2)
      (argumentsFrom argument rounds tokens) := by
  induction rounds generalizing tokens with
  | zero => exact h
  | succ rounds ih =>
      unfold argumentsFrom
      split
      · next rounds' position rest hrounds =>
        cases hrounds
        apply (hargument (h.tail rfl).expects).bind
        rintro ⟨first, after⟩ hfirst
        apply (ih hfirst).bind
        intro more hmore
        exact hmore
      · exact h

theorem arguments_contained (position : Nat)
    (h : Remains last (opened + 1) tokens) :
    Meets ParseError.IsLocal (fun outcome => Remains last opened outcome.2)
      (arguments argument position tokens) := by
  unfold arguments
  split
  · exact h.closing
  · apply (hargument h.expects).bind
    intro first hfirst
    apply (argumentsFrom_contained hargument _ hfirst).bind
    intro more hmore
    apply (closing_contained hmore position).bind
    intro rest hrest
    exact hrest

end Arguments

section Levels

variable {inner : Inner ν} (hinner : inner.Contained last)

include hinner

theorem call_contained (name : String) (position opening : Nat)
    (h : Remains last (opened + 1) tokens) :
    Meets ParseError.IsLocal (fun outcome => Remains last opened outcome.2)
      (call inner name position opening tokens) := by
  unfold call
  split
  · rfl
  · apply (arguments_contained (hinner.additive opening) opening h).bind
    intro outcome hrest
    dsimp only
    split
    · exact hrest
    · rfl

theorem primary_contained : Contained last (primary last inner) := by
  intro opened tokens h
  unfold primary
  split
  · exact h.tail rfl
  · exact call_contained hinner _ _ _ (h.tail rfl).opening
  · split
    · rfl
    · exact h.tail rfl
  · rfl
  · next opening rest _ =>
    apply (hinner.additive opening h.opening.expects).bind
    intro inside hinside
    apply (closing_contained hinside opening).bind
    intro closed hclosed
    exact hclosed
  · exact missingOperand_isLocal h

theorem power_contained : Contained last (power last inner) := by
  intro opened tokens h
  apply (primary_contained hinner h).bind
  rintro ⟨base, after⟩ hafter
  dsimp only
  split
  · apply (hinner.unary _ (hafter.expects_behind rfl)).bind
    intro exponent hexponent
    exact hexponent
  · exact hafter

theorem unary_contained : Contained last (unary last inner) := by
  intro opened tokens h
  unfold unary
  split
  · apply (hinner.unary _ (h.expects_behind rfl)).bind
    intro operand hoperand
    exact hoperand
  · exact power_contained hinner h

end Levels

section Chains

variable {op? : Token ν → Option BinaryOp} {operand : Parser ν}

/-- The induction is on the rounds; behind the operator that each one takes an
operand is due. -/
theorem chainFrom_contained
    (hop : ∀ ⦃token op⦄, op? token = some op → token = .operator op)
    (hoperand : Contained last operand) (rounds : Nat) (left : Expr ν)
    (h : Remains last opened tokens) :
    Meets ParseError.IsLocal (fun outcome => Remains last opened outcome.2)
      (chainFrom op? operand rounds left tokens) := by
  induction rounds generalizing left tokens with
  | zero => exact h
  | succ rounds ih =>
      cases tokens with
      | nil => exact h
      | cons next rest =>
          unfold chainFrom
          cases htoken : op? next.token with
          | none => exact h
          | some op =>
              apply (hoperand (h.expects_behind (hop htoken))).bind
              rintro ⟨right, after⟩ hafter
              exact ih _ hafter

theorem chain_contained
    (hop : ∀ ⦃token op⦄, op? token = some op → token = .operator op)
    (hoperand : Contained last operand) :
    Contained last (chain op? operand) := by
  intro opened tokens h
  apply (hoperand h).bind
  rintro ⟨left, rest⟩ hrest
  exact chainFrom_contained hop hoperand _ left hrest

end Chains

theorem additive_contained {inner : Inner ν} (hinner : inner.Contained last) :
    Contained last (additive last inner) :=
  chain_contained (fun _ _ => eq_of_additiveOp?)
    (chain_contained (fun _ _ => eq_of_multiplicativeOp?)
      (unary_contained hinner))

/-- The induction is on the room. -/
theorem inner_contained (last : Option (Lexeme ν)) (room : Nat) :
    (inner last room).Contained last := by
  induction room with
  | zero => exact ⟨fun _ _ _ _ => rfl, fun _ _ _ _ => rfl⟩
  | succ room ih =>
      exact ⟨fun _ => unary_contained ih, fun _ => additive_contained ih⟩

end Parser

/-- The tokens of a text with matching brackets are parsed, or one of them is to
blame. -/
theorem isLocal_of_parseLexemes {lexemes : List (Lexeme ν)}
    (hne : lexemes ≠ [])
    (hcloses : openBehind 0
      ((lexemes.map Lexeme.token).filterMap Token.bracket?) = some 0)
    {err : ParseError ν} (herr : parseLexemes lexemes = .error err) :
    err.IsLocal := by
  have hexpects : Expects lexemes.getLast? 0 lexemes :=
    { closes := hcloses
      ends := fun _ hfinal => hfinal
      operator := fun hnil => absurd hnil hne }
  have hcontained := inner_contained lexemes.getLast? maxNesting
  have hmeets : Meets ParseError.IsLocal (fun _ => True)
      (parseLexemes lexemes) := by
    unfold parseLexemes
    apply (additive_contained hcontained hexpects).bind
    rintro ⟨e, rest⟩ -
    cases rest with
    | nil => trivial
    | cons found rest => rfl
  rw [herr] at hmeets
  exact hmeets

/-! ## Texts -/

section Texts

variable [Literal ν]

/-- A text that cannot be cut is refused for one of its pieces. -/
theorem Lexeme.isLocal_of_ofPlaced (placed : List Placed) :
    Meets ParseError.IsLocal (fun _ => True)
      (Lexeme.ofPlaced (ν := ν) placed) := by
  fun_induction Lexeme.ofPlaced (ν := ν) placed with
  | case1 => trivial
  | case2 p rest hblank ih => exact ih
  | case3 => rfl
  | case4 p rest hblank hnumeric run value hread ih =>
      exact ih.bind fun _ _ => trivial
  | case5 p rest hblank hnumeric halpha run ih =>
      exact ih.bind fun _ _ => trivial
  | case6 => rfl
  | case7 p rest hblank hnumeric halpha token htoken ih =>
      exact ih.bind fun _ _ => trivial

variable {text : List Char}

theorem Lexeme.ne_nil_of_ofText {lexemes : List (Lexeme ν)}
    (htext : Lexeme.ofText text = .ok lexemes)
    (hvisible : text.all Text.isBlank = false) : lexemes ≠ [] := by
  rcases Lexeme.cut_or_offence (ν := ν) none 0 text with
    ⟨typed, full, hcut⟩ | ⟨err, herr, -⟩
  · have hfull := htext.symm.trans hcut.ofPlaced_placeAfter
    cases hfull
    exact hcut.ne_nil hvisible
  · have hboth := htext.symm.trans herr
    cases hboth

/-- Behind both checks only a piece of the text can be to blame. -/
theorem isLocal_of_checked {lexemes : List (Lexeme ν)} {err : ParseError ν}
    (hvisible : text.all Text.isBlank = false)
    (hbrackets : unmatched text = none)
    (htext : Lexeme.ofText text = .ok lexemes)
    (herr : parseLexemes lexemes = .error err) : err.IsLocal := by
  apply isLocal_of_parseLexemes (Lexeme.ne_nil_of_ofText htext hvisible) _ herr
  rw [Lexeme.openBehind_brackets htext]
  exact scan_eq_none_iff.1 hbrackets

/-- A text that does not parse is blank, or has a bracket without a partner, or
has a piece that is to blame. -/
theorem parseChars_error_cases {err : ParseError ν}
    (herr : parseChars text = .error err) :
    (text.all Text.isBlank = true ∧ err = ⟨.empty, none⟩) ∨
      (∃ p, unmatched text = some p ∧ err = .here p .unbalanced) ∨
      (unmatched text = none ∧ err.IsLocal) := by
  unfold parseChars at herr
  cases hblank : text.all Text.isBlank with
  | true =>
      rw [hblank] at herr
      cases herr
      exact .inl ⟨rfl, rfl⟩
  | false =>
      cases hbrackets : unmatched text with
      | some p =>
          simp only [hblank, hbrackets] at herr
          cases herr
          exact .inr (.inl ⟨p, rfl, rfl⟩)
      | none =>
          simp only [hblank, hbrackets] at herr
          refine .inr (.inr ⟨rfl, ?_⟩)
          rcases bind_eq_error_iff.1 herr with hcut | ⟨lexemes, htext, herr⟩
          · have hmeets := Lexeme.isLocal_of_ofPlaced (ν := ν)
              (ImplicitProduct.place text)
            rw [← Lexeme.ofText, hcut] at hmeets
            exact hmeets
          · exact isLocal_of_checked hblank hbrackets htext herr

end Texts

/-! ## Messages -/

/-- The messages about the text as a whole. -/
def wholeMessages : List String :=
  ["empty expression", "unbalanced parentheses", "unexpected end of expression"]

/-- How the description of a token begins. -/
def tokenKinds : List String :=
  ["number ", "identifier '", "operator '", "'('", "')'", "','"]

theorem notMem_wholeMessages {head text : String} (h : Begins head text)
    (hhead : ∀ whole ∈ wholeMessages, ¬Begins head whole) :
    text ∉ wholeMessages :=
  fun hmem => hhead text hmem h

section Messages

variable [Literal ν]

theorem Token.exists_begins_describe (token : Token ν) :
    ∃ kind ∈ tokenKinds, Begins kind token.describe := by
  cases token with
  | number value => exact ⟨"number ", by decide, begins_append _ _⟩
  | identifier name =>
      exact ⟨"identifier '", by decide, (begins_append _ _).append _⟩
  | operator op =>
      exact ⟨"operator '", by decide, (begins_append _ _).append _⟩
  | leftParen => exact ⟨"'('", by decide, List.prefix_rfl⟩
  | rightParen => exact ⟨"')'", by decide, List.prefix_rfl⟩
  | comma => exact ⟨"','", by decide, List.prefix_rfl⟩

theorem not_begins_unexpected : ∀ kind ∈ tokenKinds, ∀ whole ∈ wholeMessages,
    ¬Begins ("unexpected " ++ kind) whole := by
  simp only [Begins, String.toList_append]
  decide

/-- The message of a local reason is none of them. -/
theorem ParseReason.message_of_isLocal {reason : ParseReason ν}
    (h : reason.isLocal = true) : reason.message ∉ wholeMessages := by
  cases reason with
  | empty | unbalanced | unexpectedEnd | stated text => cases h
  | tooDeep =>
      have hmessage : "expression is nested too deeply" ∉ wholeMessages := by
        decide
      exact hmessage
  | emptyParentheses =>
      have hmessage : "empty parentheses" ∉ wholeMessages := by decide
      exact hmessage
  | endsWith token | unclosed token =>
      exact notMem_wholeMessages (begins_append _ _) (by decide)
  | malformedNumber name | bareFunction name | unknownFunction name =>
      exact notMem_wholeMessages ((begins_append _ name).append _) (by decide)
  | unknownCharacter c =>
      exact notMem_wholeMessages ((begins_append _ _).append _) (by decide)
  | argumentCount function expected got =>
      have hbegins := (begins_append "function '" function).append "' expects "
      exact notMem_wholeMessages
        (((hbegins.append _).append " argument(s), got ").append _) (by decide)
  | unexpected token =>
      obtain ⟨kind, hkind, hbegins⟩ := token.exists_begins_describe
      exact notMem_wholeMessages (hbegins.behind "unexpected ")
        (not_begins_unexpected kind hkind)

end Messages

/-- A text that is not blank is refused for its brackets exactly when one of them
has no partner, and then the error is at that bracket. No text at all is said to
end too early, and only a blank one is said to be empty. So behind both checks
the parser never gives any of these reasons. -/
theorem brackets_settled_before_parsing [Literal ν] (text : String) :
    (text.toList.all Text.isBlank = false → ∀ err : ParseError ν,
      (parse text = .error err ∧
          err.reason.message = "unbalanced parentheses") ↔
        ∃ p, unmatched text.toList = some p ∧ err = .here p .unbalanced) ∧
    (∀ err : ParseError ν, parse text = .error err →
      err.reason.message ≠ "unexpected end of expression" ∧
        (err.reason.message = "empty expression" →
          text.toList.all Text.isBlank = true)) ∧
    (text.toList.all Text.isBlank = false → unmatched text.toList = none →
      ∀ (lexemes : List (Lexeme ν)) (err : ParseError ν),
        Lexeme.ofText text.toList = .ok lexemes →
        parseLexemes lexemes = .error err →
        err.reason.message ∉ wholeMessages) := by
  refine ⟨?_, ?_, ?_⟩
  · intro hvisible err
    constructor
    · rintro ⟨herr, hmessage⟩
      rcases parseChars_error_cases herr with ⟨hblank, -⟩ | hbracket |
        ⟨-, hlocal⟩
      · rw [hvisible] at hblank
        cases hblank
      · exact hbracket
      · have hmem := ParseReason.message_of_isLocal hlocal
        rw [hmessage] at hmem
        exact absurd (by decide) hmem
    · rintro ⟨p, hp, rfl⟩
      refine ⟨?_, rfl⟩
      simp [parse, parseChars, hvisible, hp]
  · intro err herr
    rcases parseChars_error_cases herr with ⟨hblank, rfl⟩ | ⟨p, -, rfl⟩ |
      ⟨-, hlocal⟩
    · have hmessage : "empty expression" ≠ "unexpected end of expression" := by
        decide
      exact ⟨hmessage, fun _ => hblank⟩
    · have hmessage : "unbalanced parentheses" ≠
          "unexpected end of expression" ∧
          "unbalanced parentheses" ≠ "empty expression" := by
        decide
      exact ⟨hmessage.1, fun hempty => absurd hempty hmessage.2⟩
    · have hmem := ParseReason.message_of_isLocal hlocal
      simp only [wholeMessages, List.mem_cons, not_or] at hmem
      exact ⟨hmem.2.2.1, fun hempty => absurd hempty hmem.1⟩
  · intro hvisible hbrackets lexemes err htext herr
    exact ParseReason.message_of_isLocal
      (isLocal_of_checked hvisible hbrackets htext herr)

/-- The bracket is reported although the text also lacks an operand; where the
brackets match, the token that stands for the operand is. -/
theorem brackets_settled_before_operands :
    let refused := "y*(x+"
    let checked := "y*(x+)"
    let lexemes : List (Lexeme Float) :=
      [⟨.identifier "y", 0⟩, ⟨.operator .mul, 1⟩, ⟨.leftParen, 2⟩,
        ⟨.identifier "x", 3⟩, ⟨.operator .add, 4⟩, ⟨.rightParen, 5⟩]
    let err : ParseError Float := .here 5 (.unexpected .rightParen)
    (refused.toList.all Text.isBlank = false ∧
      parse refused = .error (.here 2 .unbalanced : ParseError Float)) ∧
    (parse checked = .error err ∧
      err.reason.message ≠ "unexpected end of expression") ∧
    (Lexeme.ofText checked.toList = .ok lexemes ∧
      parseLexemes lexemes = .error err ∧
      err.reason.message ∉ wholeMessages) := by
  intro refused checked lexemes err
  obtain ⟨hrefused, -, -⟩ :=
    brackets_settled_before_parsing (ν := Float) refused
  obtain ⟨-, hreason, hparser⟩ :=
    brackets_settled_before_parsing (ν := Float) checked
  have hvisible : refused.toList.all Text.isBlank = false := by decide
  have hopen : unmatched refused.toList = some 2 := by decide
  have hbracket := ((hrefused hvisible _).2 ⟨2, hopen, rfl⟩).1
  have hparse : parse checked = .error err := by cbv
  have htext : Lexeme.ofText checked.toList = .ok lexemes := by cbv
  have herr : parseLexemes lexemes = .error err := by cbv
  exact ⟨⟨hvisible, hbracket⟩, ⟨hparse, (hreason err hparse).1⟩, htext, herr,
    hparser (by decide) (by decide) lexemes err htext herr⟩

end SciCalc
