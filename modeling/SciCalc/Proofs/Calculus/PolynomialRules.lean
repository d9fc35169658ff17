import SciCalc.Proofs.Calculus.RuleForms
import SciCalc.Proofs.Expression.Polynomials

/-!
# Rules for polynomials

Powers, multiples of `x`, constants and `x` itself denote polynomials over the
rationals when each number is taken as the decimal that is written. For these
texts the rules compute in `ℚ[X]`: the answers denote the derivative and the
antiderivative without a constant term. There is no answer exactly where an
exponent would not fit 64 bits.
-/

namespace SciCalc

open Polynomial

namespace Rules

open Text

/-- One of the rules for polynomials applies to a text without white space. -/
def isPolynomial (text : List Char) : Bool :=
  (power? text).isSome || (linear? text).isSome || (constant? text).isSome ||
    isIdentity text

/-! ## The answers of the rules -/

section Forms

variable {text : List Char}

theorem exponent?_of_digits (hdigits : ∀ c ∈ text, c.isDigit = true) :
    exponent? text =
      if Decimal.natOfDigits text < 2 ^ 64 then some (Decimal.natOfDigits text)
      else none := by
  unfold exponent?
  rw [if_pos (List.all_eq_true.2 hdigits)]
  rfl

section Powers

variable {run : List Char} (h : power? text = some run)
variable (hdigits : ∀ c ∈ run, c.isDigit = true)

include h hdigits

theorem derivativeOf?_of_power :
    derivativeOf? text =
      if Decimal.natOfDigits run < 2 ^ 64 then
        some (powerDerivative (Decimal.natOfDigits run))
      else none := by
  rw [derivativeOf?_of_applies (f := .power) (Option.isSome_of_eq_some h),
    Form.derivative?, h, Option.bind_some, exponent?_of_digits hdigits]
  split <;> rfl

/-- An exponent that does not fit has no successor that fits. -/
theorem antiderivativeOf?_of_power :
    antiderivativeOf? text = powerAntiderivative? (Decimal.natOfDigits run) := by
  rw [antiderivativeOf?_of_applies (f := .power) (Option.isSome_of_eq_some h),
    Form.antiderivative?, h, Option.bind_some, exponent?_of_digits hdigits]
  split
  · rfl
  · next hlarge =>
    exact (if_neg fun hfits => hlarge (Nat.lt_of_succ_lt hfits)).symm

end Powers

section Multiples

variable {coefficient : List Char} (h : linear? text = some coefficient)

include h

theorem derivativeOf?_of_linear : derivativeOf? text = some coefficient := by
  rw [derivativeOf?_of_applies (f := .multiple) (Option.isSome_of_eq_some h)]
  exact h

theorem antiderivativeOf?_of_linear :
    antiderivativeOf? text = some (coefficient ++ "*x^2/2".toList) := by
  rw [antiderivativeOf?_of_applies (f := .multiple) (Option.isSome_of_eq_some h),
    Form.antiderivative?, h]
  rfl

end Multiples

section Constants

variable (h : isNumeral text = true)

include h

theorem derivativeOf?_of_isNumeral : derivativeOf? text = some ['0'] := by
  have hconstant := constant?_eq_some_iff.2 ⟨h, rfl⟩
  rw [derivativeOf?_of_applies (f := .constant)
    (Option.isSome_of_eq_some hconstant), Form.derivative?, hconstant]
  rfl

theorem antiderivativeOf?_of_isNumeral :
    antiderivativeOf? text = some (text ++ "*x".toList) := by
  have hconstant := constant?_eq_some_iff.2 ⟨h, rfl⟩
  rw [antiderivativeOf?_of_applies (f := .constant)
    (Option.isSome_of_eq_some hconstant), Form.antiderivative?, hconstant]
  rfl

end Constants

end Forms

/-! ## The answers as polynomials -/

section Answers

variable {text : List Char}

theorem phrase_of_digits (depth : ℕ) (hne : text ≠ [])
    (hdigits : ∀ c ∈ text, c.isDigit = true) :
    PolynomialPhrase (C (Decimal.natOfDigits text : ℚ)) .primary depth text := by
  have hvalue : Decimal.Scaled.toRat ⟨Decimal.natOfDigits text, 0⟩ =
      Decimal.natOfDigits text := by
    simp [Decimal.Scaled.toRat]
  rw [← hvalue]
  exact .number depth hne
    (fun c hc => Decimal.isNumeric_of_isDigit (hdigits c hc))
    (readRun?_of_digits hne hdigits)

theorem phrase_digits (depth n : ℕ) :
    PolynomialPhrase (C (n : ℚ)) .primary depth (Decimal.digits n) := by
  have hphrase := phrase_of_digits depth (Decimal.digits_ne_nil n)
    (Decimal.isDigit_of_mem_digits n)
  rwa [Decimal.natOfDigits_digits] at hphrase

theorem phrase_digit (depth : ℕ) {n : ℕ} (hn : n < 10) :
    PolynomialPhrase (C (n : ℚ)) .primary depth [Decimal.digitChar n] := by
  have hphrase := phrase_digits depth n
  rwa [Decimal.digits, if_pos hn] at hphrase

theorem phrase_power {n : ℕ}
    (h : PolynomialPhrase (C (n : ℚ)) .primary 0 text) :
    PolynomialPhrase (X ^ n) .unary 1 ('x' :: '^' :: text) :=
  (PolynomialPhrase.parameter 1).power h.toUnary

theorem phrase_square : PolynomialPhrase (X ^ 2) .unary 1 "x^2".toList :=
  phrase_power (phrase_digit 0 (show 2 < 10 by decide))

theorem phrase_half {p : ℚ[X]} (h : PolynomialPhrase p .multiplicative 1 text) :
    PolynomialPhrase (p * C ((2 : ℕ) : ℚ)⁻¹) .multiplicative 1
      (text ++ ['/', '2']) :=
  h.divided (Nat.cast_ne_zero.2 two_ne_zero)
    (phrase_digit 1 (show 2 < 10 by decide)).toUnary

theorem denotes_powerDerivative (n : ℕ) :
    TextDenotes (String.ofList (powerDerivative n))
      (Polynomial.derivative (X ^ n)) := by
  have hdepth : 1 ≤ maxNesting := by decide
  rw [derivative_X_pow]
  unfold powerDerivative
  split
  · have hzero : PolynomialPhrase (C ((0 : ℕ) : ℚ)) .primary 1 ['0'] :=
      phrase_digit 1 (by decide)
    simpa using hzero.toUnary.toMultiplicative.textDenotes hdepth
  · have hone : PolynomialPhrase (C ((1 : ℕ) : ℚ)) .primary 1 ['1'] :=
      phrase_digit 1 (by decide)
    simpa using hone.toUnary.toMultiplicative.textDenotes hdepth
  · have htwo : PolynomialPhrase (C ((2 : ℕ) : ℚ)) .primary 1 ['2'] :=
      phrase_digit 1 (by decide)
    have hproduct := htwo.toUnary.toMultiplicative.multiplied
      (PolynomialPhrase.parameter 1).toUnary
    simpa using hproduct.textDenotes hdepth
  · next n _ _ =>
    have hfactor := (phrase_digits 1 (n + 1)).toUnary.toMultiplicative
    have hproduct := hfactor.multiplied (phrase_power (phrase_digits 0 n))
    rw [List.append_assoc]
    exact hproduct.textDenotes hdepth

theorem denotes_powerAntiderivative {n : ℕ} {answer : List Char}
    (h : powerAntiderivative? n = some answer) :
    TextDenotes (String.ofList answer)
      (X ^ (n + 1) * C ((n + 1 : ℕ) : ℚ)⁻¹) := by
  unfold powerAntiderivative? at h
  split at h
  · cases h
    have hpower := (phrase_power (phrase_digits 0 (n + 1))).toMultiplicative
    have hquotient := hpower.divided (Nat.cast_ne_zero.2 n.succ_ne_zero)
      (phrase_digits 1 (n + 1)).toUnary
    rw [List.append_assoc]
    exact hquotient.textDenotes (by decide)
  · cases h

/-- Without a star the product is the one that is placed behind the last
digit. -/
theorem denotes_juxtaposed {value : Decimal.Scaled}
    (hnumeral : isNumeral text = true) (hplain : PlainDigits text)
    (hread : Decimal.readRun? text = some value) :
    TextDenotes (String.ofList (text ++ ['x'])) (C value.toRat * X) := by
  obtain ⟨hne, hrun, -⟩ := run_of_isNumeral hnumeral hplain
  obtain ⟨d, hlast, hdigit⟩ := getLast?_of_isNumeral hnumeral
  have hplainDigit := hplain d (List.mem_of_getLast? hlast) hdigit
  have hspelled : (Token.number value).Spelled text := .number hne hrun hread
  have hparse := parseChars_number_letter hplainDigit (c := 'x') rfl hspelled
    hlast
  refine .of_exact ?_ (.mul (.number value) .parameter)
  rwa [parse, String.toList_ofList]

theorem antiderivative_monomial (c : ℚ) (n : ℕ) :
    Polynomial.derivative (C c * X ^ (n + 1) * C ((n + 1 : ℕ) : ℚ)⁻¹) =
        C c * X ^ n ∧
      (C c * X ^ (n + 1) * C ((n + 1 : ℕ) : ℚ)⁻¹).eval 0 = 0 := by
  constructor
  · have hcoefficient : ((n + 1 : ℕ) : ℚ)⁻¹ * c * (n + 1 : ℕ) = c := by
      field_simp
    rw [mul_comm, ← mul_assoc, ← C_mul, derivative_C_mul_X_pow, hcoefficient,
      Nat.add_sub_cancel]
  · simp

end Answers

/-! ## The rules -/

/-- What the rules give for a text without white space that denotes `p`. -/
structure Solved (text : List Char) (p : ℚ[X]) : Prop where
  denotes : TextDenotes (String.ofList text) p
  derivative_denotes : ∀ answer, derivativeOf? text = some answer →
    TextDenotes (String.ofList answer) (Polynomial.derivative p)
  derivative_isSome : (derivativeOf? text).isSome = true ↔
    p.natDegree < 2 ^ 64
  antiderivative_denotes : ∀ answer, antiderivativeOf? text = some answer →
    ∃ q, TextDenotes (String.ofList answer) q ∧
      Polynomial.derivative q = p ∧ q.eval 0 = 0
  antiderivative_isSome : (antiderivativeOf? text).isSome = true ↔
    p.natDegree + 1 < 2 ^ 64

namespace Solved

variable {text : List Char}

/-- Below the second degree there is always an answer. -/
theorem of_answers {answer answer' : List Char} {p q : ℚ[X]}
    (hdegree : p.natDegree ≤ 1) (hp : TextDenotes (String.ofList text) p)
    (hanswer : derivativeOf? text = some answer)
    (hderivative : TextDenotes (String.ofList answer) (Polynomial.derivative p))
    (hanswer' : antiderivativeOf? text = some answer')
    (hantiderivative : TextDenotes (String.ofList answer') q)
    (hq : Polynomial.derivative q = p ∧ q.eval 0 = 0) : Solved text p where
  denotes := hp
  derivative_denotes := by
    intro out hout
    cases hanswer.symm.trans hout
    exact hderivative
  derivative_isSome := by
    rw [hanswer]
    exact ⟨fun _ => by omega, fun _ => rfl⟩
  antiderivative_denotes := by
    intro out hout
    cases hanswer'.symm.trans hout
    exact ⟨q, hantiderivative, hq⟩
  antiderivative_isSome := by
    rw [hanswer']
    exact ⟨fun _ => by omega, fun _ => rfl⟩

theorem power {run : List Char} (hplain : PlainDigits text)
    (h : power? text = some run) :
    Solved text (X ^ Decimal.natOfDigits run) := by
  obtain ⟨rfl, hne, hrun⟩ := power?_eq_some_iff.1 h
  have hdigits : ∀ c ∈ run, c.isDigit = true :=
    fun c hc => hplain c (by simp [hc]) (hrun c hc)
  refine ⟨?_, ?_, ?_, ?_, ?_⟩
  · have hphrase := phrase_power (phrase_of_digits 0 hne hdigits)
    exact hphrase.toMultiplicative.textDenotes (by decide)
  · intro answer hanswer
    rw [derivativeOf?_of_power h hdigits] at hanswer
    obtain ⟨-, hanswer⟩ := Option.ite_none_right_eq_some.1 hanswer
    cases hanswer
    exact denotes_powerDerivative _
  · rw [derivativeOf?_of_power h hdigits, natDegree_X_pow]
    simp
  · intro answer hanswer
    rw [antiderivativeOf?_of_power h hdigits] at hanswer
    refine ⟨_, denotes_powerAntiderivative hanswer, ?_⟩
    simpa using antiderivative_monomial 1 (Decimal.natOfDigits run)
  · rw [antiderivativeOf?_of_power h hdigits, natDegree_X_pow]
    simp [powerAntiderivative?]

theorem identity (h : isIdentity text = true) : Solved text X := by
  have hdepth : 1 ≤ maxNesting := by decide
  obtain rfl := beq_iff_eq.1 h
  have hx := (PolynomialPhrase.parameter 1).toUnary.toMultiplicative
  have hone : TextDenotes (String.ofList ['1']) (Polynomial.derivative X) := by
    simpa [powerDerivative] using denotes_powerDerivative 1
  refine of_answers natDegree_X_le (hx.textDenotes hdepth) rfl hone rfl
    ((phrase_half phrase_square.toMultiplicative).textDenotes hdepth) ?_
  simpa using antiderivative_monomial 1 1

theorem constant {value : List Char} (hplain : PlainDigits text)
    (h : constant? text = some value) : ∃ c : ℚ, Solved text (C c) := by
  have hdepth : 1 ≤ maxNesting := by decide
  obtain ⟨hnumeral, rfl⟩ := constant?_eq_some h
  obtain ⟨hne, hrun, number, hread⟩ := run_of_isNumeral hnumeral hplain
  have hconstant :=
    (PolynomialPhrase.number 1 hne hrun hread).toUnary.toMultiplicative
  have hmultiple := hconstant.multiplied (PolynomialPhrase.parameter 1).toUnary
  have hzero : TextDenotes (String.ofList ['0'])
      (Polynomial.derivative (C number.toRat)) := by
    simpa [powerDerivative] using denotes_powerDerivative 0
  exact ⟨number.toRat, of_answers (by simp) (hconstant.textDenotes hdepth)
    (derivativeOf?_of_isNumeral hnumeral) hzero
    (antiderivativeOf?_of_isNumeral hnumeral) (hmultiple.textDenotes hdepth)
    (by simp)⟩

theorem multiple {coefficient : List Char} (hplain : PlainDigits text)
    (h : linear? text = some coefficient) : ∃ c : ℚ, Solved text (C c * X) := by
  have hdepth : 1 ≤ maxNesting := by decide
  obtain ⟨hnumeral, hform⟩ := linear?_eq_some h
  have hplain' := hplain.mono (prefix_of_linear? h).subset
  obtain ⟨hne, hrun, number, hread⟩ := run_of_isNumeral hnumeral hplain'
  have hcoefficient :=
    (PolynomialPhrase.number 1 hne hrun hread).toUnary.toMultiplicative
  have htext : TextDenotes (String.ofList text) (C number.toRat * X) := by
    rcases hform with rfl | rfl
    · exact denotes_juxtaposed hnumeral hplain' hread
    · exact (hcoefficient.multiplied
        (PolynomialPhrase.parameter 1).toUnary).textDenotes hdepth
  have hderivative : TextDenotes (String.ofList coefficient)
      (Polynomial.derivative (C number.toRat * X)) := by
    simpa using hcoefficient.textDenotes hdepth
  have hhalf := phrase_half (hcoefficient.multiplied phrase_square)
  rw [List.append_assoc] at hhalf
  have hdegree : (C number.toRat * X).natDegree ≤ 1 :=
    (natDegree_C_mul_le _ _).trans natDegree_X_le
  refine ⟨number.toRat, of_answers hdegree htext (derivativeOf?_of_linear h)
    hderivative (antiderivativeOf?_of_linear h) (hhalf.textDenotes hdepth) ?_⟩
  simpa using antiderivative_monomial number.toRat 1

theorem exists_of_isPolynomial (hplain : PlainDigits text)
    (h : isPolynomial text = true) : ∃ p : ℚ[X], Solved text p := by
  simp only [isPolynomial, Bool.or_eq_true, Option.isSome_iff_exists] at h
  obtain ((⟨run, h⟩ | ⟨coefficient, h⟩) | ⟨value, h⟩) | h := h
  · exact ⟨_, power hplain h⟩
  · obtain ⟨c, hsolved⟩ := multiple hplain h
    exact ⟨_, hsolved⟩
  · obtain ⟨c, hsolved⟩ := constant hplain h
    exact ⟨_, hsolved⟩
  · exact ⟨_, identity h⟩

end Solved

end Rules

/-- A text that parses, and to which one of the rules for polynomials applies
without its white space, denotes one polynomial. The rules answer it with
texts for the derivative and for the antiderivative without a constant term,
and they answer exactly if the exponents fit 64 bits. -/
theorem rules_compute_formal_calculus (text : String)
    (hparse : ∃ e : Expr Float, parse text = .ok e)
    (happlies : Rules.isPolynomial (Text.strip text.toList) = true) :
    ∃ p : ℚ[X], TextDenotes text p ∧
      (∀ p', TextDenotes text p' → p' = p) ∧
      (∀ out, derivative? text = some out →
        TextDenotes out (Polynomial.derivative p)) ∧
      ((derivative? text).isSome = true ↔ p.natDegree < 2 ^ 64) ∧
      (∀ out, antiderivative? text = some out →
        ∃ q, TextDenotes out q ∧ Polynomial.derivative q = p ∧
          q.eval 0 = 0) ∧
      ((antiderivative? text).isSome = true ↔ p.natDegree + 1 < 2 ^ 64) := by
  obtain ⟨e, he⟩ := hparse
  have hplain := plainDigits_of_parseChars (parseChars_strip he)
  obtain ⟨p, hsolved⟩ := Rules.Solved.exists_of_isPolynomial hplain happlies
  have hdenotes := TextDenotes.of_strip he hsolved.denotes
  refine ⟨p, hdenotes, fun p' h' => h'.unique hdenotes, ?_, ?_, ?_, ?_⟩
  · intro out hout
    obtain ⟨answer, hanswer, rfl⟩ := Option.map_eq_some_iff.1 hout
    exact hsolved.derivative_denotes answer hanswer
  · rw [derivative?, Option.isSome_map]
    exact hsolved.derivative_isSome
  · intro out hout
    obtain ⟨answer, hanswer, rfl⟩ := Option.map_eq_some_iff.1 hout
    exact hsolved.antiderivative_denotes answer hanswer
  · rw [antiderivative?, Option.isSome_map]
    exact hsolved.antiderivative_isSome

/-- A multiple with zeros around the digits of its coefficient, and a power
with zeros in front of its exponent. -/
theorem formal_calculus_of_multiple_and_power :
    (∃ p : ℚ[X], TextDenotes " 02.50 * x" p ∧
      TextDenotes "02.50" (Polynomial.derivative p) ∧
      ∃ q, TextDenotes "02.50*x^2/2" q ∧ Polynomial.derivative q = p ∧
        q.eval 0 = 0) ∧
    (∃ p : ℚ[X], TextDenotes "x ^ 007" p ∧
      TextDenotes "7*x^6" (Polynomial.derivative p) ∧
      ∃ q, TextDenotes "x^8/8" q ∧ Polynomial.derivative q = p ∧
        q.eval 0 = 0) := by
  have hmultiple : parse " 02.50 * x" = .ok (Expr.binary .mul
      (.number (⟨250, -2⟩ : Decimal.Scaled)) (.identifier "x")) := by cbv
  have hpower : parse "x ^ 007" = .ok (Expr.binary .pow (.identifier "x")
      (.number (⟨7, 0⟩ : Decimal.Scaled))) := by cbv
  obtain ⟨p, hp, -, hderivative, -, hantiderivative, -⟩ :=
    rules_compute_formal_calculus " 02.50 * x"
      ⟨_, parse_eq_ok_iff_exact.2 ⟨_, hmultiple, rfl⟩⟩ (by decide)
  obtain ⟨p', hp', -, hderivative', -, hantiderivative', -⟩ :=
    rules_compute_formal_calculus "x ^ 007"
      ⟨_, parse_eq_ok_iff_exact.2 ⟨_, hpower, rfl⟩⟩ (by decide)
  exact ⟨⟨p, hp, hderivative _ (by decide +kernel),
    hantiderivative _ (by decide +kernel)⟩,
    ⟨p', hp', hderivative' _ (by decide +kernel),
    hantiderivative' _ (by decide +kernel)⟩⟩

end SciCalc
