import Mathlib
import SciCalc.Proofs.Calculus.RuleOutput

/-!
# Forms of the rules

A rule takes the texts of one form: a power, a multiple of `x`, a constant, `x`
itself, or an entry of a table. No text has two forms, as its first character
and its last one tell which of them it can have. So a rule may be tried before
or after any other, and derivatives and antiderivatives are known for the same
texts. The one exception is a power whose exponent is the largest of 64 bits,
because the exponent of its antiderivative does not fit.
-/

namespace SciCalc

open Text

namespace Rules

/-! ## Forms as languages -/

/-- The forms of the texts that the rules take. -/
inductive Form where
  | power
  | multiple
  | constant
  | identity
  | entry
  deriving DecidableEq, Repr

/-- Runs of digits of any script. -/
def digitRuns : Language Char :=
  {run | run ≠ [] ∧ ∀ c ∈ run, isDecimalDigit c = true}

/-- Digits, optionally a point and more digits. -/
def numerals : Language Char :=
  digitRuns * (1 + {['.']} * digitRuns)

/-- A table has an entry for a text. -/
def isEntry (table : List (String × String)) (text : List Char) : Bool :=
  Option.isSome <| entry? table text

namespace Form

/-- The texts of a form. -/
def language : Form → Language Char
  | power => {['x', '^']} * digitRuns
  | multiple => numerals * (1 + {['*']}) * {['x']}
  | constant => numerals
  | identity => {['x']}
  | entry => {text | ∃ row ∈ derivatives, row.1.toList = text}

/-- The rule of a form takes a text. -/
def applies : Form → List Char → Bool
  | power, text => (power? text).isSome
  | multiple, text => (linear? text).isSome
  | constant, text => (constant? text).isSome
  | identity, text => isIdentity text
  | entry, text => isEntry derivatives text

/-- The derivative by the rule of a form alone. -/
def derivative? : Form → List Char → Option (List Char)
  | power, text => ((power? text).bind exponent?).map powerDerivative
  | multiple, text => linear? text
  | constant, text => (constant? text).map fun _ => ['0']
  | identity, text => if isIdentity text then some ['1'] else none
  | entry, text => entry? derivatives text

/-- The antiderivative by the rule of a form alone. -/
def antiderivative? : Form → List Char → Option (List Char)
  | power, text => ((power? text).bind exponent?).bind powerAntiderivative?
  | multiple, text => (linear? text).map (· ++ "*x^2/2".toList)
  | constant, text => (constant? text).map (· ++ "*x".toList)
  | identity, text => if isIdentity text then some "x^2/2".toList else none
  | entry, text => entry? antiderivatives text

/-- The only form that a text can have. -/
def ofText (text : List Char) : Form :=
  if isEntry derivatives text then entry
  else if text.head? = some 'x' then
    if text = ['x'] then identity else power
  else if text.getLast? = some 'x' then multiple
  else constant

end Form

variable {text : List Char}

/-- A numeral is a run of digits, or two of them around a point. -/
theorem mem_numerals_iff_digitRuns :
    text ∈ numerals ↔ ∃ whole ∈ digitRuns, text = whole ∨
      ∃ places ∈ digitRuns, text = whole ++ '.' :: places := by
  simp only [numerals, Language.mem_mul, Language.mem_add, Language.mem_one]
  constructor
  · rintro ⟨whole, hwhole, rest, rfl | ⟨point, rfl, places, hplaces, rfl⟩, rfl⟩
    · exact ⟨whole, hwhole, .inl (List.append_nil whole)⟩
    · exact ⟨whole, hwhole, .inr ⟨places, hplaces, rfl⟩⟩
  · rintro ⟨whole, hwhole, rfl | ⟨places, hplaces, rfl⟩⟩
    · exact ⟨text, hwhole, [], .inl rfl, List.append_nil text⟩
    · exact ⟨whole, hwhole, _, .inr ⟨['.'], rfl, places, hplaces, rfl⟩, rfl⟩

theorem mem_numerals_iff : text ∈ numerals ↔ isNumeral text = true := by
  rw [mem_numerals_iff_digitRuns]
  constructor
  · rintro ⟨whole, ⟨hne, hwhole⟩, rfl | ⟨places, ⟨hne', hplaces⟩, rfl⟩⟩
    · rw [isNumeral, List.takeWhile_eq_self_iff.2 hwhole,
        List.dropWhile_eq_nil_iff.2 hwhole]
      simpa using hne
    · have hpoint : isDecimalDigit '.' = false := by decide
      rw [isNumeral, List.takeWhile_append_of_pos hwhole,
        List.dropWhile_append_of_pos hwhole]
      simpa [hpoint, hne, hne'] using hplaces
  · intro h
    obtain ⟨whole, hne, hwhole, rfl | ⟨places, hne', hplaces, rfl⟩⟩ :=
      exists_of_isNumeral h
    · exact ⟨text, ⟨hne, hwhole⟩, .inl rfl⟩
    · exact ⟨whole, ⟨hne, hwhole⟩, .inr ⟨places, ⟨hne', hplaces⟩, rfl⟩⟩

/-! ## What the rules recognise -/

theorem head_of_isNumeral (h : isNumeral text = true) :
    ∃ c rest, text = c :: rest ∧ c ≠ 'x' := by
  obtain ⟨whole, hne, hwhole, hparts⟩ := exists_of_isNumeral h
  obtain ⟨c, rest, rfl⟩ := List.exists_cons_of_ne_nil hne
  have hc : c ≠ 'x' := ne_of_class (hwhole c List.mem_cons_self) (by decide)
  obtain rfl | ⟨places, -, -, rfl⟩ := hparts
  · exact ⟨c, rest, rfl, hc⟩
  · exact ⟨c, _, rfl, hc⟩

/-- A numeral has digits around its point. -/
theorem getLast?_of_isNumeral (h : isNumeral text = true) :
    ∃ d, text.getLast? = some d ∧ isDecimalDigit d = true := by
  have hlast : ∀ run : List Char, run ≠ [] →
      (∀ c ∈ run, isDecimalDigit c = true) →
      ∃ d, run.getLast? = some d ∧ isDecimalDigit d = true :=
    fun run hne hrun => ⟨_, List.getLast?_eq_some_getLast hne,
      hrun _ (List.getLast_mem hne)⟩
  obtain ⟨whole, hne, hwhole, rfl | ⟨places, hne', hplaces, rfl⟩⟩ :=
    exists_of_isNumeral h
  · exact hlast text hne hwhole
  · obtain ⟨d, hd, hdigit⟩ := hlast places hne' hplaces
    refine ⟨d, ?_, hdigit⟩
    rw [List.getLast?_append, List.getLast?_cons, hd]
    rfl

theorem getLast?_ne_of_isNumeral (h : isNumeral text = true) {c : Char}
    (hc : isDecimalDigit c = false) : text.getLast? ≠ some c := by
  obtain ⟨d, hd, hdigit⟩ := getLast?_of_isNumeral h
  rw [hd]
  exact fun heq => ne_of_class hdigit hc (Option.some.inj heq)

theorem power?_eq_some_iff {run : List Char} :
    power? text = some run ↔
      text = 'x' :: '^' :: run ∧ run ≠ [] ∧
        ∀ c ∈ run, isDecimalDigit c = true := by
  constructor
  · intro h
    unfold power? at h
    split at h
    · split at h
      · next hrun =>
        cases h
        simpa using hrun
      · cases h
    · cases h
  · rintro ⟨rfl, hne, hrun⟩
    exact if_pos (by simpa [hne] using hrun)

theorem dropEnd?_concat (c : Char) (front : List Char) :
    dropEnd? c (front ++ [c]) = some front := by
  simp [dropEnd?]

/-- A multiple is a numeral and `x`, with or without a star. -/
theorem linear?_eq_some_iff {coefficient : List Char} :
    linear? text = some coefficient ↔ isNumeral coefficient = true ∧
      (text = coefficient ++ ['x'] ∨ text = coefficient ++ ['*', 'x']) := by
  constructor
  · exact linear?_eq_some
  · rintro ⟨hnumeral, rfl | rfl⟩
    · have hstar : dropEnd? '*' coefficient = none :=
        if_neg (getLast?_ne_of_isNumeral hnumeral (by decide))
      simp [linear?, dropEnd?_concat, hstar, hnumeral]
    · have hx : dropEnd? 'x' (coefficient ++ ['*', 'x']) =
          some (coefficient ++ ['*']) := by
        rw [List.append_cons]
        exact dropEnd?_concat 'x' (coefficient ++ ['*'])
      simp [linear?, hx, dropEnd?_concat, hnumeral]

theorem constant?_eq_some_iff {value : List Char} :
    constant? text = some value ↔ isNumeral value = true ∧ value = text := by
  constructor
  · exact constant?_eq_some
  · rintro ⟨hnumeral, rfl⟩
    exact if_pos hnumeral

theorem isEntry_iff {table : List (String × String)} :
    isEntry table text = true ↔
      ∃ input ∈ table.map Prod.fst, input.toList = text := by
  simp [isEntry, entry?]

/-- Both tables have the same inputs, none of them twice. -/
theorem inputs_of_tables :
    derivatives.map Prod.fst = antiderivatives.map Prod.fst ∧
      (derivatives.map Prod.fst).Nodup := by
  decide

theorem isEntry_antiderivatives (text : List Char) :
    isEntry antiderivatives text = isEntry derivatives text := by
  rw [Bool.eq_iff_iff, isEntry_iff, isEntry_iff, inputs_of_tables.1]

namespace Form

variable {f : Form}

/-- The rule of a form takes the texts of the form. -/
theorem applies_iff_mem_language : f.applies text = true ↔ text ∈ f.language := by
  cases f with
  | power =>
      rw [applies, Option.isSome_iff_exists]
      simp only [power?_eq_some_iff]
      constructor
      · rintro ⟨run, rfl, hrun⟩
        exact ⟨['x', '^'], rfl, run, hrun, rfl⟩
      · rintro ⟨_, rfl, run, hrun, rfl⟩
        exact ⟨run, rfl, hrun⟩
  | multiple =>
      rw [applies, Option.isSome_iff_exists]
      simp only [linear?_eq_some_iff, ← mem_numerals_iff]
      constructor
      · rintro ⟨coefficient, hnumeral, rfl | rfl⟩
        · exact ⟨coefficient, ⟨coefficient, hnumeral, [], .inl rfl,
            List.append_nil coefficient⟩, ['x'], rfl, rfl⟩
        · exact ⟨coefficient ++ ['*'], ⟨coefficient, hnumeral, ['*'], .inr rfl,
            rfl⟩, ['x'], rfl, List.append_assoc coefficient ['*'] ['x']⟩
      · rintro ⟨_, ⟨coefficient, hnumeral, _, rfl | rfl, rfl⟩, _, rfl, rfl⟩
        · exact ⟨coefficient, hnumeral, .inl (by simp)⟩
        · exact ⟨coefficient, hnumeral, .inr (by simp)⟩
  | constant =>
      rw [applies, Option.isSome_iff_exists]
      simp only [constant?_eq_some_iff, exists_eq_right]
      exact mem_numerals_iff.symm
  | identity => exact beq_iff_eq
  | entry =>
      rw [applies, isEntry_iff]
      simp only [List.mem_map, exists_exists_and_eq_and]
      rfl

/-! ## One form for each text -/

/-- No entry of a table begins with `x` or is a numeral or a multiple. -/
theorem isEntry_eq_false (h : text.head? = some 'x' ∨
    isNumeral text = true ∨ (linear? text).isSome = true) :
    isEntry derivatives text = false := by
  have hinputs : ∀ input ∈ derivatives.map Prod.fst,
      ¬(input.toList.head? = some 'x' ∨ isNumeral input.toList = true ∨
        (linear? input.toList).isSome = true) := by
    decide
  rw [Bool.eq_false_iff, ne_eq, isEntry_iff]
  rintro ⟨input, hinput, rfl⟩
  exact hinputs input hinput h

theorem head?_ne_of_isNumeral (h : isNumeral text = true) (rest : List Char) :
    (text ++ rest).head? ≠ some 'x' := by
  obtain ⟨c, others, rfl, hc⟩ := head_of_isNumeral h
  exact fun heq => hc (Option.some.inj heq)

theorem ofText_of_numeral {coefficient : List Char}
    (hnumeral : isNumeral coefficient = true) (rest : List Char)
    (hentry : isEntry derivatives (coefficient ++ rest) = false) :
    ofText (coefficient ++ rest) =
      if (coefficient ++ rest).getLast? = some 'x' then multiple
      else constant := by
  rw [ofText, if_neg (by simp [hentry]),
    if_neg (head?_ne_of_isNumeral hnumeral rest)]

/-- A form that applies is the one that the first and the last character
tell. -/
theorem eq_ofText (h : f.applies text = true) : f = ofText text := by
  cases f with
  | power =>
      obtain ⟨run, hrun⟩ := Option.isSome_iff_exists.1 h
      obtain ⟨rfl, hne, -⟩ := power?_eq_some_iff.1 hrun
      have hentry : isEntry derivatives ('x' :: '^' :: run) = false :=
        isEntry_eq_false (.inl rfl)
      simp [ofText, hentry]
  | multiple =>
      have hentry := isEntry_eq_false (.inr (.inr h))
      obtain ⟨coefficient, hcoefficient⟩ := Option.isSome_iff_exists.1 h
      obtain ⟨hnumeral, rfl | rfl⟩ := linear?_eq_some_iff.1 hcoefficient
      · rw [ofText_of_numeral hnumeral _ hentry, if_pos (by simp)]
      · rw [ofText_of_numeral hnumeral _ hentry, if_pos (by simp)]
  | constant =>
      obtain ⟨value, hvalue⟩ := Option.isSome_iff_exists.1 h
      obtain ⟨hnumeral, rfl⟩ := constant?_eq_some_iff.1 hvalue
      have hform := ofText_of_numeral hnumeral []
      rw [List.append_nil] at hform
      rw [hform (isEntry_eq_false (.inr (.inl hnumeral))),
        if_neg (getLast?_ne_of_isNumeral hnumeral (by decide))]
  | identity =>
      obtain rfl := beq_iff_eq.1 h
      decide
  | entry => exact (if_pos h).symm

theorem find?_of_applies {order : List Form} (hmem : f ∈ order)
    (h : f.applies text = true) :
    order.find? (fun g => g.applies text) = some f := by
  have hfound : (order.find? fun g => g.applies text).isSome = true :=
    List.find?_isSome.2 ⟨f, hmem, h⟩
  obtain ⟨g, hg⟩ := Option.isSome_iff_exists.1 hfound
  have happlies := List.find?_some hg
  rw [hg, eq_ofText happlies, eq_ofText h]

/-- Whatever the order is in which forms are tried, the same one is found. -/
theorem find?_congr {order order' : List Form} (hall : ∀ f, f ∈ order)
    (hall' : ∀ f, f ∈ order') :
    order.find? (fun f => f.applies text) =
      order'.find? (fun f => f.applies text) := by
  by_cases h : ∃ f : Form, f.applies text = true
  · obtain ⟨f, hf⟩ := h
    rw [find?_of_applies (hall f) hf, find?_of_applies (hall' f) hf]
  · have hnone : ∀ forms : List Form,
        forms.find? (fun f => f.applies text) = none :=
      fun forms => List.find?_eq_none.2 fun f _ hf => h ⟨f, hf⟩
    rw [hnone, hnone]

end Form

/-! ## The two chains of rules -/

/-- The order in which the rules for derivatives are tried. -/
theorem derivativeOf?_eq_find? (text : List Char) :
    derivativeOf? text =
      ([.power, .multiple, .constant, .identity, .entry].find?
        fun f : Form => f.applies text).bind fun f => f.derivative? text := by
  simp only [derivativeOf?, List.find?, Form.applies, isEntry]
  cases hpower : power? text
  case some run => simp [Form.derivative?, hpower]
  cases hmultiple : linear? text
  case some coefficient => simp [Form.derivative?, hmultiple]
  cases hconstant : constant? text
  case some value => simp [Form.derivative?, hconstant]
  cases hidentity : isIdentity text
  case true => simp [Form.derivative?, hidentity]
  cases hentry : entry? derivatives text
  case some output => simp [Form.derivative?, hentry]
  case none => rfl

/-- The order in which the rules for antiderivatives are tried. -/
theorem antiderivativeOf?_eq_find? (text : List Char) :
    antiderivativeOf? text =
      ([.power, .identity, .constant, .multiple, .entry].find?
        fun f : Form => f.applies text).bind fun f => f.antiderivative? text := by
  -- No default simp set here, as it would spell out the texts of the answers.
  simp only [antiderivativeOf?, List.find?, Form.applies,
    ← isEntry_antiderivatives]
  cases hpower : power? text
  case some run =>
    simp only [Option.isSome_some, Option.bind_some, Form.antiderivative?, hpower]
  cases hidentity : isIdentity text
  case true =>
    simp only [Option.isSome_none, Option.bind_some, Form.antiderivative?,
      hidentity, if_true]
  cases hconstant : constant? text
  case some value =>
    simp only [Option.isSome_some, Option.isSome_none, Option.bind_some,
      Option.map_some, Form.antiderivative?, hconstant, Bool.false_eq_true, if_false]
  cases hmultiple : linear? text
  case some coefficient =>
    simp only [Option.isSome_some, Option.isSome_none, Option.bind_some,
      Option.map_some, Form.antiderivative?, hmultiple, Bool.false_eq_true, if_false]
  rw [isEntry]
  cases hentry : entry? antiderivatives text
  case some output =>
    simp only [Option.isSome_some, Option.isSome_none, Option.bind_some,
      Form.antiderivative?, hentry, Bool.false_eq_true, if_false]
  case none => rfl

section Answers

variable {f : Form} (h : f.applies text = true)

include h

theorem derivativeOf?_of_applies :
    derivativeOf? text = f.derivative? text := by
  rw [derivativeOf?_eq_find?, Form.find?_of_applies (by cases f <;> simp) h]
  rfl

theorem antiderivativeOf?_of_applies :
    antiderivativeOf? text = f.antiderivative? text := by
  rw [antiderivativeOf?_eq_find?, Form.find?_of_applies (by cases f <;> simp) h]
  rfl

end Answers

theorem answers_eq_none (h : ∀ f : Form, f.applies text = false) :
    derivativeOf? text = none ∧ antiderivativeOf? text = none := by
  simp [derivativeOf?_eq_find?, antiderivativeOf?_eq_find?, h]

/-! ## Exponents -/

theorem exponent?_eq_some_iff {run : List Char} {n : ℕ} :
    exponent? run = some n ↔ (∀ c ∈ run, c.isDigit = true) ∧
      Decimal.natOfDigits run = n ∧ n < 2 ^ 64 := by
  have hbound : Nat.pow 2 64 = 2 ^ 64 := rfl
  unfold exponent?
  rw [Option.ite_none_right_eq_some, List.all_eq_true, hbound]
  refine and_congr_right fun _ => ?_
  rw [Option.ite_none_right_eq_some, Option.some.injEq, and_comm]
  exact and_congr_right fun hvalue => by rw [hvalue]

/-- A power whose exponent is the largest number of 64 bits. -/
def IsLastPower (text : List Char) : Prop :=
  ∃ run, (∀ c ∈ run, c.isDigit = true) ∧ text = 'x' :: '^' :: run ∧
    Decimal.natOfDigits run = 2 ^ 64 - 1

theorem power?_of_isLastPower {run : List Char}
    (hdigits : ∀ c ∈ run, c.isDigit = true)
    (hvalue : Decimal.natOfDigits run = 2 ^ 64 - 1) :
    power? ('x' :: '^' :: run) = some run := by
  refine power?_eq_some_iff.2 ⟨rfl, ?_, ?_⟩
  · rintro rfl
    cases hvalue
  · exact fun c hc => isDecimalDigit_of_isDigit (hdigits c hc)

/-- Such a power has a derivative and no antiderivative. -/
theorem answers_of_isLastPower (h : IsLastPower text) :
    (derivativeOf? text).isSome = true ∧ antiderivativeOf? text = none := by
  obtain ⟨run, hdigits, rfl, hvalue⟩ := h
  have hpower := power?_of_isLastPower hdigits hvalue
  have happlies : Form.power.applies ('x' :: '^' :: run) = true :=
    Option.isSome_of_eq_some hpower
  have hexponent := exponent?_eq_some_iff.2 ⟨hdigits, hvalue, by decide⟩
  rw [derivativeOf?_of_applies happlies, antiderivativeOf?_of_applies happlies]
  constructor
  · simp [Form.derivative?, hpower, hexponent]
  · simp [Form.antiderivative?, hpower, hexponent, powerAntiderivative?]

/-- Any other text of a form has both answers or none. -/
theorem isSome_answers_iff {f : Form} (h : f.applies text = true)
    (hlast : ¬IsLastPower text) :
    (f.derivative? text).isSome = true ↔ (f.antiderivative? text).isSome = true := by
  cases f with
  | power =>
      obtain ⟨run, hpower⟩ := Option.isSome_iff_exists.1 h
      obtain ⟨rfl, -⟩ := power?_eq_some_iff.1 hpower
      rw [Form.derivative?, Form.antiderivative?, hpower, Option.bind_some,
        Option.isSome_map]
      cases hexponent : exponent? run with
      | none => rfl
      | some n =>
          obtain ⟨hdigits, hvalue, hn⟩ := exponent?_eq_some_iff.1 hexponent
          have hnext : n ≠ 2 ^ 64 - 1 :=
            fun heq => hlast ⟨run, hdigits, rfl, hvalue.trans heq⟩
          have hfits : n + 1 < Nat.pow 2 64 := by
            change n + 1 < 2 ^ 64
            omega
          rw [Option.bind_some, powerAntiderivative?, if_pos hfits]
          rfl
  | entry =>
      rw [Bool.coe_iff_coe]
      exact (isEntry_antiderivatives text).symm
  | _ => simp_all [Form.derivative?, Form.antiderivative?, Form.applies]

theorem isSome_answers (hlast : ¬IsLastPower text) :
    (derivativeOf? text).isSome = true ↔
      (antiderivativeOf? text).isSome = true := by
  by_cases h : ∃ f : Form, f.applies text = true
  · obtain ⟨f, hf⟩ := h
    rw [derivativeOf?_of_applies hf, antiderivativeOf?_of_applies hf]
    exact isSome_answers_iff hf hlast
  · have hnone : ∀ f : Form, f.applies text = false :=
      fun f => Bool.eq_false_iff.2 fun hf => h ⟨f, hf⟩
    obtain ⟨hderivative, hantiderivative⟩ := answers_eq_none hnone
    rw [hderivative, hantiderivative]

end Rules

/-- Each rule takes the texts of its form, and no text has two forms, nor a
table one input twice. So derivative and antiderivative are those by the first
rule that applies, whatever the order in which the rules are tried. The same
texts have a derivative and an antiderivative, but for a power whose exponent is
the largest of 64 bits, which has a derivative alone. -/
theorem rules_cover_same_texts (text : String) :
    (∀ f : Rules.Form, f.applies (strip text.toList) = true ↔
      strip text.toList ∈ f.language) ∧
    (∀ f g : Rules.Form, strip text.toList ∈ f.language →
      strip text.toList ∈ g.language → f = g) ∧
    (Rules.derivatives.map Prod.fst = Rules.antiderivatives.map Prod.fst ∧
      (Rules.derivatives.map Prod.fst).Nodup) ∧
    (∀ order : List Rules.Form, (∀ f, f ∈ order) →
      derivative? text = ((order.find? fun f => f.applies (strip text.toList)).bind
        fun f => f.derivative? (strip text.toList)).map String.ofList ∧
      antiderivative? text =
        ((order.find? fun f => f.applies (strip text.toList)).bind
          fun f => f.antiderivative? (strip text.toList)).map String.ofList) ∧
    (¬Rules.IsLastPower (strip text.toList) →
      ((derivative? text).isSome = true ↔ (antiderivative? text).isSome = true)) ∧
    (Rules.IsLastPower (strip text.toList) →
      (derivative? text).isSome = true ∧ antiderivative? text = none) := by
  refine ⟨?_, ?_, Rules.inputs_of_tables, ?_, ?_, ?_⟩
  · exact fun f => Rules.Form.applies_iff_mem_language
  · intro f g hf hg
    rw [← Rules.Form.applies_iff_mem_language] at hf hg
    exact (Rules.Form.eq_ofText hf).trans (Rules.Form.eq_ofText hg).symm
  · intro order hall
    have hfirst : ∀ f : Rules.Form,
        f ∈ [.power, .multiple, .constant, .identity, .entry] := by
      rintro ⟨⟩ <;> decide
    have hsecond : ∀ f : Rules.Form,
        f ∈ [.power, .identity, .constant, .multiple, .entry] := by
      rintro ⟨⟩ <;> decide
    rw [derivative?, antiderivative?, Rules.derivativeOf?_eq_find?,
      Rules.antiderivativeOf?_eq_find?, Rules.Form.find?_congr hfirst hall,
      Rules.Form.find?_congr hsecond hall]
    exact ⟨rfl, rfl⟩
  · intro hlast
    rw [derivative?, antiderivative?, Option.isSome_map, Option.isSome_map]
    exact Rules.isSome_answers hlast
  · intro hlast
    obtain ⟨hderivative, hantiderivative⟩ := Rules.answers_of_isLastPower hlast
    rw [derivative?, antiderivative?, Option.isSome_map, hantiderivative]
    exact ⟨hderivative, rfl⟩

/-- The last power has a derivative alone. A multiple with a star is of one form
only, and tried in the opposite order the rules answer it as they do. -/
theorem rules_cover_last_power_and_multiple :
    (derivative? " x ^ 018446744073709551615").isSome = true ∧
      antiderivative? " x ^ 018446744073709551615" = none ∧
    (∀ f : Rules.Form, "2.5*x".toList ∈ f.language → f = .multiple) ∧
    derivative? " 2.5 * x" = some "2.5" ∧
    antiderivative? " 2.5 * x" = some "2.5*x^2/2" := by
  have hlast : Rules.IsLastPower (strip " x ^ 018446744073709551615".toList) :=
    ⟨"018446744073709551615".toList, List.all_eq_true.1 (by decide +kernel),
      by decide +kernel, by decide +kernel⟩
  obtain ⟨-, -, -, -, -, hpower⟩ :=
    rules_cover_same_texts " x ^ 018446744073709551615"
  obtain ⟨hlanguage, hunique, -, horder, -⟩ := rules_cover_same_texts " 2.5 * x"
  have hmem := (hlanguage .multiple).1 (by decide +kernel)
  obtain ⟨hderivative, hantiderivative⟩ :=
    horder [.entry, .identity, .constant, .multiple, .power]
      (by rintro ⟨⟩ <;> decide)
  refine ⟨(hpower hlast).1, (hpower hlast).2, ?_, ?_, ?_⟩
  · intro f hf
    exact hunique f .multiple hf hmem
  · rw [hderivative]
    decide +kernel
  · rw [hantiderivative]
    decide +kernel

end SciCalc
