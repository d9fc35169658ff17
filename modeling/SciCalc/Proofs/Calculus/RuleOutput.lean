import SciCalc.Calculus.Rules
import SciCalc.Proofs.Decimal.NumberText
import SciCalc.Proofs.Expression.FreeVariables
import SciCalc.Proofs.Expression.Phrases

/-!
# Rules and expressions

A rule takes the digits of any script where an expression knows only `0` to
`9`. Apart from this an answer of a rule is an expression in `x`: it is written
from numerals, `x` and operators, or it is an entry of a table. So an answer
parses exactly when its digits are those of expressions, and they are when
those of the question are.
-/

namespace SciCalc

open Outcome Text

/-! ## Characters that no expression has -/

section Foreign

variable {ν : Type}

theorem Token.toNat_of_ofChar? {c : Char} {token : Token ν}
    (h : Token.ofChar? c = some token) : c.toNat < 128 := by
  unfold Token.ofChar? at h
  split at h <;> cases h <;> decide

/-- The decimal digits of a text that is cut are `0` to `9`. -/
theorem Lexeme.Cut.plainDigits [Literal ν] {before : Option Char} {index : Nat}
    {text : List Char} {typed full : List (Lexeme ν)}
    (h : Lexeme.Cut before index text typed full) : PlainDigits text := by
  intro c hc hdigit
  rcases h.class_of_mem hc with hblank | hnumeric | halpha | ⟨token, htoken⟩
  · rw [not_isBlank_of_isDecimalDigit hdigit] at hblank
    cases hblank
  · have hpoint := ne_of_class hdigit (show isDecimalDigit '.' = false by decide)
    simpa [Lexeme.isNumeric, hpoint] using hnumeric
  · have hletter := isAlpha_iff.1 halpha
    exact isDigit_of_isDecimalDigit hdigit (by omega)
  · exact isDigit_of_isDecimalDigit hdigit (Token.toNat_of_ofChar? htoken)

theorem plainDigits_of_parseChars [Literal ν] {text : List Char} {e : Expr ν}
    (h : parseChars text = .ok e) : PlainDigits text := by
  obtain ⟨typed, full, depth, hcut, -⟩ := exists_cut_of_parseChars h
  exact hcut.plainDigits

end Foreign

/-! ## Phrases in one variable -/

namespace Rules

open Grammar Lexeme

/-- The text is written for a phrase that has no variable but `x` and is nested
no deeper than `depth`. -/
def Phrase (level : Level) (depth : Nat) (text : List Char) : Prop :=
  ∃ (tokens : List (Token Float)) (e : Expr Float) (depth' : Nat),
    Written text tokens ∧ Derives level tokens e depth' ∧ depth' ≤ depth ∧
      ∀ name ∈ e.occurrences, name = "x"

namespace Phrase

variable {depth : Nat} {left right text : List Char} {c : Char}

theorem toUnary (h : Phrase .primary depth text) : Phrase .unary depth text :=
  PhraseOf.toUnary h

theorem toMultiplicative (h : Phrase .unary depth text) :
    Phrase .multiplicative depth text :=
  PhraseOf.toMultiplicative h

theorem parameter (depth : Nat) : Phrase .primary depth ['x'] :=
  PhraseOf.letter depth rfl fun _ hfree => List.mem_singleton.1 hfree

theorem power (hleft : Phrase .primary (depth + 1) left)
    (hright : Phrase .unary depth right) :
    Phrase .unary (depth + 1) (left ++ '^' :: right) :=
  PhraseOf.power hleft hright fun _ _ hfree hfree' =>
    List.forall_mem_append.2 ⟨hfree, hfree'⟩

theorem product {op : BinaryOp} (hop : op = .mul ∨ op = .div)
    (hc : Token.ofChar? (ν := Float) c = some (.operator op))
    (hleft : Phrase .multiplicative depth left)
    (hright : Phrase .unary depth right) :
    Phrase .multiplicative depth (left ++ c :: right) :=
  PhraseOf.product hop hc hleft hright fun _ _ hfree hfree' =>
    List.forall_mem_append.2 ⟨hfree, hfree'⟩

theorem multiplied (hleft : Phrase .multiplicative depth left)
    (hright : Phrase .unary depth right) :
    Phrase .multiplicative depth (left ++ '*' :: right) :=
  product (.inl rfl) rfl hleft hright

theorem divided (hleft : Phrase .multiplicative depth left)
    (hright : Phrase .unary depth right) :
    Phrase .multiplicative depth (left ++ '/' :: right) :=
  product (.inr rfl) rfl hleft hright

/-- A phrase parses when it is not nested too deep. -/
theorem exists_parse (h : Phrase .multiplicative depth text)
    (hdepth : depth ≤ maxNesting) :
    ∃ e : Expr Float, parseChars text = .ok e ∧
      ∀ name ∈ e.occurrences, name = "x" :=
  PhraseOf.exists_parse h hdepth

end Phrase

/-! ## Numerals -/

section Numerals

variable {text : List Char}

theorem exists_of_isNumeral (h : isNumeral text = true) :
    ∃ whole, whole ≠ [] ∧ (∀ c ∈ whole, isDecimalDigit c = true) ∧
      (text = whole ∨ ∃ places, places ≠ [] ∧
        (∀ c ∈ places, isDecimalDigit c = true) ∧
        text = whole ++ '.' :: places) := by
  have hwhole := List.takeWhile_append_dropWhile (p := isDecimalDigit) (l := text)
  unfold isNumeral at h
  rw [Bool.and_eq_true] at h
  refine ⟨text.takeWhile isDecimalDigit, by simpa using h.1,
    fun c hc => List.mem_takeWhile_imp hc, ?_⟩
  obtain ⟨-, hrest⟩ := h
  split at hrest
  · next hdrop =>
    rw [hdrop, List.append_nil] at hwhole
    exact .inl hwhole.symm
  · next point places hdrop =>
    simp only [Bool.and_eq_true, beq_iff_eq, List.all_eq_true] at hrest
    obtain ⟨⟨rfl, hne⟩, hplaces⟩ := hrest
    rw [hdrop] at hwhole
    exact .inr ⟨places, by simpa using hne, hplaces, hwhole.symm⟩

theorem isNumeral_of_isDigit (hne : text ≠ [])
    (hdigits : ∀ c ∈ text, c.isDigit = true) : isNumeral text = true := by
  have hall : ∀ c ∈ text, isDecimalDigit c = true :=
    fun c hc => isDecimalDigit_of_isDigit (hdigits c hc)
  unfold isNumeral
  rw [List.takeWhile_eq_self_iff.2 hall, List.dropWhile_eq_nil_iff.2 hall]
  simpa using hne

theorem readRun?_of_digits (hne : text ≠ [])
    (hdigits : ∀ c ∈ text, c.isDigit = true) :
    Decimal.readRun? text = some ⟨Decimal.natOfDigits text, 0⟩ := by
  unfold Decimal.readRun?
  rw [List.takeWhile_eq_self_iff.2 hdigits, List.dropWhile_eq_nil_iff.2 hdigits]
  simp [hne]

/-- In the digits of expressions a numeral is a run that reads as a number. -/
theorem run_of_isNumeral (h : isNumeral text = true)
    (hplain : PlainDigits text) :
    text ≠ [] ∧ (∀ c ∈ text, isNumeric c = true) ∧
      ∃ value, Decimal.readRun? text = some value := by
  obtain ⟨whole, hne, hwhole, rfl | ⟨places, -, hplaces, rfl⟩⟩ :=
    exists_of_isNumeral h
  · have hdigits := fun c hc => hplain c hc (hwhole c hc)
    exact ⟨hne, fun c hc => Decimal.isNumeric_of_isDigit (hdigits c hc), _,
      readRun?_of_digits hne hdigits⟩
  · obtain ⟨hfront, hback⟩ := plainDigits_append.1 hplain
    have hdigits := fun c hc => hfront c hc (hwhole c hc)
    have hdigits' := fun c hc =>
      hback c (List.mem_cons_of_mem _ hc) (hplaces c hc)
    have hplaces' : ∀ c ∈ places, isNumeric c = true :=
      fun c hc => Decimal.isNumeric_of_isDigit (hdigits' c hc)
    have hrun : ∀ c ∈ whole ++ '.' :: places, isNumeric c = true := by
      rw [List.forall_mem_append, List.forall_mem_cons]
      exact ⟨fun c hc => Decimal.isNumeric_of_isDigit (hdigits c hc),
        by decide, hplaces'⟩
    have hnumber : Decimal.IsNumber (whole ++ '.' :: places) :=
      (Decimal.isNumber_whole_append hdigits hplaces').2
        ⟨hdigits', fun hnil => absurd hnil hne⟩
    exact ⟨by simp, hrun, Option.isSome_iff_exists.1
      ((Decimal.isSome_readRun?_iff hrun).2 hnumber)⟩

/-- So it is a phrase. -/
theorem Phrase.numeral (depth : Nat) (h : isNumeral text = true)
    (hplain : PlainDigits text) : Phrase .primary depth text := by
  obtain ⟨hne, hrun, value, hread⟩ := run_of_isNumeral h hplain
  have hvalue : Literal.read? text = some value.toFloat :=
    congrArg (Option.map Decimal.Scaled.toFloat) hread
  exact PhraseOf.number depth hne hrun hvalue (by simp [Expr.occurrences])

theorem Phrase.digits (depth n : Nat) :
    Phrase .primary depth (Decimal.digits n) :=
  numeral depth
    (isNumeral_of_isDigit (Decimal.digits_ne_nil n)
      (Decimal.isDigit_of_mem_digits n))
    fun c hc _ => Decimal.isDigit_of_mem_digits n c hc

end Numerals

/-! ## The answers of the rules -/

/-- The answers that do not take anything over from the question. -/
def fixedAnswers : List String :=
  ["0", "1", "2*x", "x^2/2"] ++ derivatives.map Prod.snd ++
    antiderivatives.map Prod.snd

/-- What can stand behind a coefficient. -/
def endings : List String :=
  ["", "*x", "*x^2/2"]

/-- The answers of the rules to a question. -/
inductive Answer (question : List Char) : List Char → Prop
  | fixed {text : String} (h : text ∈ fixedAnswers) :
      Answer question text.toList
  | powerDerivative (n : Nat) :
      Answer question (Decimal.digits (n + 1) ++ "*x^".toList ++
        Decimal.digits n)
  | powerAntiderivative (n : Nat) :
      Answer question ("x^".toList ++ Decimal.digits n ++ ['/'] ++
        Decimal.digits n)
  | multiple {coefficient : List Char} {ending : String}
      (hnumeral : isNumeral coefficient = true)
      (hpart : coefficient <+: question) (hending : ending ∈ endings) :
      Answer question (coefficient ++ ending.toList)

variable {question answer : List Char}

theorem eq_of_dropEnd? {c : Char} {text front : List Char}
    (h : dropEnd? c text = some front) : text = front ++ [c] := by
  unfold dropEnd? at h
  split at h
  · next hlast =>
    cases h
    exact (List.dropLast_append_getLast? c hlast).symm
  · cases h

/-- A multiple is written with or without a star. -/
theorem linear?_eq_some {coefficient : List Char}
    (h : linear? question = some coefficient) :
    isNumeral coefficient = true ∧
      (question = coefficient ++ ['x'] ∨ question = coefficient ++ ['*', 'x']) := by
  obtain ⟨front, hfront, h⟩ := Option.bind_eq_some_iff.1 h
  have hquestion := eq_of_dropEnd? hfront
  dsimp only at h
  split at h
  · next hnumeral =>
    cases h
    refine ⟨hnumeral, ?_⟩
    cases hstar : dropEnd? '*' front with
    | none => exact .inl hquestion
    | some rest =>
        right
        rw [eq_of_dropEnd? hstar, List.append_assoc] at hquestion
        exact hquestion
  · cases h

theorem prefix_of_linear? {coefficient : List Char}
    (h : linear? question = some coefficient) : coefficient <+: question := by
  rcases (linear?_eq_some h).2 with rfl | rfl
  · exact List.prefix_append _ _
  · exact List.prefix_append _ _

theorem constant?_eq_some {value : List Char}
    (h : constant? question = some value) :
    isNumeral value = true ∧ value = question := by
  unfold constant? at h
  split at h
  · next hnumeral =>
    cases h
    exact ⟨hnumeral, rfl⟩
  · cases h

/-- An entry of a table is one of the fixed answers. -/
theorem answer_of_entry? {table : List (String × String)}
    (htable : ∀ row ∈ table, row.2 ∈ fixedAnswers)
    (h : entry? table question = some answer) : Answer question answer := by
  obtain ⟨row, hrow, rfl⟩ := Option.map_eq_some_iff.1 h
  exact .fixed (htable row (List.mem_of_find?_eq_some hrow))

theorem answer_of_powerDerivative (n : Nat) :
    Answer question (powerDerivative n) := by
  unfold powerDerivative
  split
  · exact .fixed (show "0" ∈ fixedAnswers by decide)
  · exact .fixed (show "1" ∈ fixedAnswers by decide)
  · exact .fixed (show "2*x" ∈ fixedAnswers by decide)
  · exact .powerDerivative _

theorem answer_of_derivativeOf? (h : derivativeOf? question = some answer) :
    Answer question answer := by
  unfold derivativeOf? at h
  split at h
  · obtain ⟨n, -, rfl⟩ := Option.map_eq_some_iff.1 h
    exact answer_of_powerDerivative n
  · split at h
    · next coefficient hlinear =>
      cases h
      rw [← List.append_nil answer]
      exact .multiple (linear?_eq_some hlinear).1 (prefix_of_linear? hlinear)
        (show "" ∈ endings by decide)
    · split at h
      · cases h
        exact .fixed (show "0" ∈ fixedAnswers by decide)
      · split at h
        · cases h
          exact .fixed (show "1" ∈ fixedAnswers by decide)
        · exact answer_of_entry? (by decide) h

theorem answer_of_antiderivativeOf?
    (h : antiderivativeOf? question = some answer) :
    Answer question answer := by
  unfold antiderivativeOf? at h
  split at h
  · obtain ⟨n, -, hn⟩ := Option.bind_eq_some_iff.1 h
    unfold powerAntiderivative? at hn
    split at hn
    · cases hn
      exact .powerAntiderivative _
    · cases hn
  · split at h
    · cases h
      exact .fixed (show "x^2/2" ∈ fixedAnswers by decide)
    · split at h
      · next value hconstant =>
        cases h
        obtain ⟨hnumeral, rfl⟩ := constant?_eq_some hconstant
        exact .multiple hnumeral (List.prefix_refl _) (by decide)
      · split at h
        · next coefficient hlinear =>
          cases h
          exact .multiple (linear?_eq_some hlinear).1
            (prefix_of_linear? hlinear) (by decide)
        · exact answer_of_entry? (by decide) h

theorem exists_parse_of_fixed {text : String} (h : text ∈ fixedAnswers) :
    ∃ e : Expr Float, parseChars text.toList = .ok e ∧
      ∀ name ∈ e.occurrences, name = "x" := by
  have hall : ∀ text ∈ fixedAnswers,
      ((parse (ν := Float) text).map fun e =>
        e.occurrences.all (· == "x")).toOption = some true := by
    decide +kernel
  have htext := hall text h
  cases hparse : parse (ν := Float) text with
  | error cause =>
      rw [hparse] at htext
      cases htext
  | ok e =>
      rw [hparse] at htext
      have hnames := Option.some.inj htext
      exact ⟨e, hparse, by simpa using hnames⟩

namespace Answer

/-- An answer in the digits of expressions is an expression in `x`. -/
theorem exists_parse (h : Answer question answer)
    (hplain : PlainDigits answer) :
    ∃ e : Expr Float, parseChars answer = .ok e ∧
      ∀ name ∈ e.occurrences, name = "x" := by
  have hdepth : 1 ≤ maxNesting := by decide
  have htwo : ∀ depth, Phrase .primary depth ['2'] :=
    fun depth => .numeral depth (by decide) (plainDigits_of_ascii (by decide))
  cases h with
  | fixed hfixed => exact exists_parse_of_fixed hfixed
  | powerDerivative n =>
      have hpower := (Phrase.parameter 1).power (Phrase.digits 0 n).toUnary
      have hphrase := (Phrase.digits 1 (n + 1)).toUnary.toMultiplicative.multiplied
        hpower
      rw [List.append_assoc]
      exact hphrase.exists_parse hdepth
  | powerAntiderivative n =>
      have hpower := (Phrase.parameter 1).power (Phrase.digits 0 n).toUnary
      have hphrase := hpower.toMultiplicative.divided (Phrase.digits 1 n).toUnary
      rw [List.append_assoc]
      exact hphrase.exists_parse hdepth
  | @multiple coefficient ending hnumeral hpart hending =>
      have hcoefficient := (Phrase.numeral 1 hnumeral
        (plainDigits_append.1 hplain).1).toUnary.toMultiplicative
      simp only [endings, List.mem_cons, List.not_mem_nil, or_false] at hending
      obtain rfl | rfl | rfl := hending
      · rw [String.toList_empty, List.append_nil]
        exact hcoefficient.exists_parse hdepth
      · exact (hcoefficient.multiplied
          (Phrase.parameter 1).toUnary).exists_parse hdepth
      · have hpower := (Phrase.parameter 1).power (htwo 0).toUnary
        have hphrase := (hcoefficient.multiplied hpower).divided
          (htwo 1).toUnary
        rw [List.append_assoc] at hphrase
        exact hphrase.exists_parse hdepth

/-- The digits of an answer that are not its own come from the question. -/
theorem plainDigits (h : Answer question answer)
    (hquestion : PlainDigits question) : PlainDigits answer := by
  have hdigits : ∀ n, PlainDigits (Decimal.digits n) :=
    fun n c hc _ => Decimal.isDigit_of_mem_digits n c hc
  have hfixed : ∀ text ∈ fixedAnswers ++ endings ++ ["*x^", "x^", "/"],
      PlainDigits text.toList := by
    have hascii : ∀ text ∈ fixedAnswers ++ endings ++ ["*x^", "x^", "/"],
        (text.toList.all fun c => c.toNat < 128) = true := by decide
    exact fun text htext => plainDigits_of_ascii (hascii text htext)
  cases h with
  | fixed h => exact hfixed _ (by simp [h])
  | powerDerivative n =>
      rw [plainDigits_append, plainDigits_append]
      exact ⟨⟨hdigits (n + 1), hfixed "*x^" (by decide)⟩, hdigits n⟩
  | powerAntiderivative n =>
      rw [plainDigits_append, plainDigits_append, plainDigits_append]
      exact ⟨⟨⟨hfixed "x^" (by decide), hdigits n⟩, hfixed "/" (by decide)⟩,
        hdigits n⟩
  | multiple hnumeral hpart hending =>
      exact plainDigits_append.2
        ⟨hquestion.mono hpart.subset, hfixed _ (by simp [hending])⟩

end Answer

theorem answer_of_rule {text out : String}
    (h : derivative? text = some out ∨ antiderivative? text = some out) :
    Answer (strip text.toList) out.toList := by
  rcases h with h | h
  · obtain ⟨answer, hanswer, rfl⟩ := Option.map_eq_some_iff.1 h
    rw [String.toList_ofList]
    exact answer_of_derivativeOf? hanswer
  · obtain ⟨answer, hanswer, rfl⟩ := Option.map_eq_some_iff.1 h
    rw [String.toList_ofList]
    exact answer_of_antiderivativeOf? hanswer

end Rules

/-- An answer of a rule parses exactly when its decimal digits are `0` to `9`,
and then no variable but `x` is free in it. The answer to a question in such
digits always parses. -/
theorem rule_output_parses_iff_plainDigits (text out : String)
    (h : derivative? text = some out ∨ antiderivative? text = some out) :
    ((∃ e : Expr Float, parse out = .ok e) ↔
      ∀ c ∈ out.toList, isDecimalDigit c = true → c.isDigit = true) ∧
    (∀ e : Expr Float, parse out = .ok e →
      ∀ name ∈ e.freeVariables, name = "x") ∧
    ((∀ c ∈ text.toList, isDecimalDigit c = true → c.isDigit = true) →
      ∃ e : Expr Float, parse out = .ok e) := by
  have hanswer := Rules.answer_of_rule h
  have hparse : (∃ e : Expr Float, parse out = .ok e) ↔
      PlainDigits out.toList := by
    constructor
    · rintro ⟨e, he⟩
      exact plainDigits_of_parseChars he
    · intro hplain
      obtain ⟨e, he, -⟩ := hanswer.exists_parse hplain
      exact ⟨e, he⟩
  refine ⟨hparse, ?_, ?_⟩
  · intro e he name hname
    obtain ⟨e', he', hnames⟩ :=
      hanswer.exists_parse (plainDigits_of_parseChars he)
    cases he.symm.trans he'
    exact hnames name (Expr.mem_freeVariables.1 hname)
  · intro htext
    exact hparse.2 (hanswer.plainDigits
      (PlainDigits.mono htext ((List.filter_subset_self _))))

/-- The antiderivative of a multiple in ordinary digits parses, the one of the
same multiple in Arabic digits does not. -/
theorem antiderivative_in_two_scripts :
    antiderivative? " 3 * x" = some "3*x^2/2" ∧
      (∃ e : Expr Float, parse "3*x^2/2" = .ok e ∧
        ∀ name ∈ e.freeVariables, name = "x") ∧
      antiderivative? " ٣ * x" = some "٣*x^2/2" ∧
      ¬∃ e : Expr Float, parse "٣*x^2/2" = .ok e := by
  have hplain : antiderivative? " 3 * x" = some "3*x^2/2" := by decide +kernel
  have hforeign : antiderivative? " ٣ * x" = some "٣*x^2/2" := by
    decide +kernel
  obtain ⟨-, hnames, hparses⟩ :=
    rule_output_parses_iff_plainDigits _ _ (.inr hplain)
  obtain ⟨hiff, -, -⟩ :=
    rule_output_parses_iff_plainDigits _ _ (.inr hforeign)
  refine ⟨hplain, ?_, hforeign, ?_⟩
  · obtain ⟨e, he⟩ := hparses (plainDigits_of_ascii (by decide))
    exact ⟨e, he, hnames e he⟩
  · rw [hiff]
    intro hdigits
    have hdigit := hdigits '٣' (.head _) (by decide)
    cases hdigit

/-- The derivative of three times `x` in Arabic digits is no expression. -/
theorem derivative_in_foreign_digit :
    derivative? "٣x" = some "٣" ∧
      parse (ν := Float) "٣" = .error (.here 0 (.unknownCharacter '٣')) := by
  constructor
  · decide +kernel
  · cbv

end SciCalc
