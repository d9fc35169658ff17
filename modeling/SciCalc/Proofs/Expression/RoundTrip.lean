import SciCalc.Proofs.Decimal.NumberText
import SciCalc.Proofs.Expression.Acceptance
import SciCalc.Proofs.Expression.Rendering

/-!
# Printing a tree and parsing it

A tree in full parentheses parses to itself as long as its parentheses are not
nested too deep, and is refused for its nesting otherwise. How deep the printed
tree is nested differs by operator: a minus sign and an exponent lie one level
deeper than the parentheses around them.
-/

namespace SciCalc

open SciCalc.Grammar SciCalc.Lexeme SciCalc.Outcome SciCalc.Parser

variable {ν : Type}

namespace Expr

mutual

/-- The numbers of a tree. -/
def numbers : Expr ν → List ν
  | number value => [value]
  | identifier _ => []
  | neg operand => operand.numbers
  | binary _ left right => left.numbers ++ right.numbers
  | call _ arguments => numbersAll arguments

def numbersAll : List (Expr ν) → List ν
  | [] => []
  | e :: es => e.numbers ++ numbersAll es

end

/-- How deep the printed tree is nested. -/
def nest : Expr ν → Nat
  | number _ | identifier _ => 0
  | neg operand => 2 + operand.nest
  | binary .pow left right => max (1 + left.nest) (2 + right.nest)
  | binary _ left right => 1 + max left.nest right.nest
  | call _ [argument] => 1 + argument.nest
  | call _ _ => 0

/-- The trees that a text can have: names are runs of letters, those of
functions are called with one argument, and no other name is. -/
inductive Plain : Expr ν → Prop
  | number (value : ν) : Plain (.number value)
  | identifier {name : String} (hne : name.toList ≠ [])
      (hletters : ∀ c ∈ name.toList, c.isAlpha = true)
      (hname : Elementary.ofName? name = none) : Plain (.identifier name)
  | neg {operand : Expr ν} (hoperand : Plain operand) : Plain (.neg operand)
  | binary (op : BinaryOp) {left right : Expr ν} (hleft : Plain left)
      (hright : Plain right) : Plain (.binary op left right)
  | call {name : String} {f : Elementary} {argument : Expr ν}
      (hname : Elementary.ofName? name = some f)
      (hargument : Plain argument) : Plain (.call name [argument])

end Expr

/-- The text of a number is a run of digits and points that reads back. -/
structure ReadsBack [Literal ν] (value : ν) : Prop where
  ne_nil : (Literal.text value).toList ≠ []
  run : ∀ c ∈ (Literal.text value).toList, isNumeric c = true
  read : Literal.read? (Literal.text value).toList = some value

/-- The names of functions are runs of letters. -/
theorem letters_of_ofName? {name : String} {f : Elementary}
    (h : Elementary.ofName? name = some f) :
    name.toList ≠ [] ∧ ∀ c ∈ name.toList, c.isAlpha = true := by
  have hname : f.name = name := by simpa using List.find?_some h
  subst hname
  cases f <;> simp [Elementary.name]

/-- A printed operation derives the operation, one level below its
parentheses. -/
theorem Grammar.Derives.operation (op : BinaryOp)
    {before after : List (Token ν)} {left right : Expr ν} {depth depth' : Nat}
    (hleft : Derives .primary before left depth)
    (hright : Derives .primary after right depth') :
    Derives .additive (before ++ .operator op :: after) (.binary op left right)
      (if op = .pow then max depth (depth' + 1) else max depth depth') := by
  have hleft' := hleft.primary_toUnary
  have hright' := hright.primary_toUnary
  cases op with
  | add =>
      exact .sum (.inl rfl) hleft'.unary_toAdditive (.ofUnary hright')
  | sub =>
      exact .sum (.inr rfl) hleft'.unary_toAdditive (.ofUnary hright')
  | mul =>
      exact .ofMultiplicative (.product (.inl rfl) (.ofUnary hleft') hright')
  | div =>
      exact .ofMultiplicative (.product (.inr rfl) (.ofUnary hleft') hright')
  | pow => exact (Derives.ofPower (.power hleft hright')).unary_toAdditive

/-- By induction on the tree: its text is written for tokens that derive it,
and these are nested as deep as the tree prints. -/
theorem exists_written_render [Literal ν] {e : Expr ν} (he : e.Plain)
    (hnumbers : ∀ value ∈ e.numbers, ReadsBack value) :
    ∃ tokens, Written e.render.toList tokens ∧
      Derives .primary tokens e e.nest := by
  induction he with
  | number value =>
      have hvalue := hnumbers value (List.mem_singleton_self value)
      exact ⟨[.number value], .number hvalue.ne_nil hvalue.run hvalue.read,
        .number value⟩
  | @identifier name hne hletters hname =>
      have hwritten := Written.identifier (ν := ν) hne hletters
      rw [String.ofList_toList] at hwritten
      exact ⟨[.identifier name], hwritten, .identifier hname⟩
  | @neg operand _ ih =>
      obtain ⟨tokens, hwritten, hderives⟩ := ih hnumbers
      have htree := Derives.parenthesised
        (Derives.neg hderives.primary_toUnary).unary_toAdditive
      have hnest : (Expr.neg operand).nest = operand.nest + 1 + 1 := by
        rw [Expr.nest]
        omega
      rw [← hnest] at htree
      refine ⟨_, ?_, htree⟩
      simpa [Expr.render] using hwritten.negated.parenthesised
  | @binary op left right _ _ ihLeft ihRight =>
      obtain ⟨tokens, hleft, hderives⟩ := ihLeft fun value hvalue =>
        hnumbers value (List.mem_append_left _ hvalue)
      obtain ⟨tokens', hright, hderives'⟩ := ihRight fun value hvalue =>
        hnumbers value (List.mem_append_right _ hvalue)
      have htree := Derives.parenthesised (hderives.operation op hderives')
      have hnest : (Expr.binary op left right).nest =
          (if op = .pow then max left.nest (right.nest + 1)
            else max left.nest right.nest) + 1 := by
        cases op <;> simp [Expr.nest] <;> omega
      rw [← hnest] at htree
      refine ⟨_, ?_, htree⟩
      simpa [Expr.render] using (hleft.operation op hright).parenthesised
  | @call name f argument hname _ ih =>
      obtain ⟨tokens, hwritten, hderives⟩ := ih fun value hvalue =>
        hnumbers value (List.mem_append_left _ hvalue)
      obtain ⟨hne, hletters⟩ := letters_of_ofName? hname
      have htree := Derives.call hname
        hderives.primary_toUnary.unary_toAdditive
      have hnest : (Expr.call name [argument]).nest = argument.nest + 1 := by
        rw [Expr.nest]
        omega
      rw [← hnest] at htree
      refine ⟨_, ?_, htree⟩
      have hcalled := hwritten.called hne hletters
      rw [String.ofList_toList] at hcalled
      simpa [Expr.render, Expr.renderAll] using hcalled

/-- The text of a plain tree parses to the tree or, without room for its
nesting, is refused for that. -/
theorem fits_parse_render [Literal ν] {e : Expr ν} (he : e.Plain)
    (hnumbers : ∀ value ∈ e.numbers, ReadsBack value) :
    Fits maxNesting e.nest (parse e.render) (.ok e) := by
  obtain ⟨tokens, hwritten, hderives⟩ := exists_written_render he hnumbers
  obtain ⟨lexemes, htext, rfl⟩ := hwritten.ofText
  have hwhole := hderives.primary_toUnary.unary_toAdditive
  rw [parse, parseChars_eq_parseLexemes htext hwhole]
  exact fits_parseLexemes hwhole

/-- Round trip of printing and parsing for trees over doubles. Of the digits
that are printed for a number nothing is used but that they read back. -/
theorem parse_render (e : Expr Float) (he : e.Plain)
    (hfinite : ∀ x ∈ e.numbers,
      x.isFinite = true ∧ x.toBits.toNat < 2 ^ 63)
    (hdigits : ∀ x ∈ e.numbers,
      Literal.read? (Literal.text x).toList = some x) :
    (e.nest ≤ 200 → parse e.render = .ok e) ∧
      (200 < e.nest → ∃ cause : ParseError Float,
        parse e.render = .error cause ∧ cause.reason = .tooDeep ∧
          cause.reason.message = "expression is nested too deeply") := by
  have hnumbers : ∀ x ∈ e.numbers, ReadsBack x := by
    intro x hx
    obtain ⟨hne, hrun⟩ :=
      Decimal.shortestPositional_run (hfinite x hx).1 (hfinite x hx).2
    exact ⟨hne, hrun, hdigits x hx⟩
  have hfits := fits_parse_render he hnumbers
  refine ⟨hfits.1, fun hdeep => ?_⟩
  obtain ⟨position, herror⟩ := hfits.2 hdeep
  exact ⟨_, herror, rfl, rfl⟩

theorem plain_iterate_neg (count : Nat) :
    (Expr.neg^[count] (.identifier "x" : Expr Float)).Plain ∧
      (Expr.neg^[count] (.identifier "x" : Expr Float)).nest = 2 * count ∧
      (Expr.neg^[count] (.identifier "x" : Expr Float)).numbers = [] := by
  induction count with
  | zero =>
      exact ⟨.identifier (by decide) (by simp) (by decide), rfl, rfl⟩
  | succ count ih =>
      rw [Function.iterate_succ_apply']
      refine ⟨.neg ih.1, ?_, ih.2.2⟩
      rw [Expr.nest, ih.2.1]
      omega

/-- A product under an exponent is read back, and a hundred and one signs are
too many. -/
theorem parse_render_power_and_signs :
    parse (Expr.binary .pow (.binary .mul (.number (2.5 : Float))
        (.identifier "x")) (.neg (.call "sin" [.identifier "y"]))).render =
      .ok (.binary .pow (.binary .mul (.number 2.5) (.identifier "x"))
        (.neg (.call "sin" [.identifier "y"]))) ∧
    ∃ cause : ParseError Float,
      parse (Expr.neg^[101] (.identifier "x" : Expr Float)).render =
          .error cause ∧
        cause.reason = .tooDeep ∧
        cause.reason.message = "expression is nested too deeply" := by
  obtain ⟨hplain, hnest, hnumbers⟩ := plain_iterate_neg 101
  constructor
  · refine (parse_render _ ?_ ?_ ?_).1 (by decide)
    · exact .binary _ (.binary _ (.number _)
        (.identifier (by decide) (by simp) (by decide)))
        (.neg (.call (f := .sin) (by decide)
          (.identifier (by decide) (by simp) (by decide))))
    · decide +kernel
    · decide +kernel
  · refine (parse_render _ hplain ?_ ?_).2 (by omega)
    · rw [hnumbers]
      exact List.forall_mem_nil _
    · rw [hnumbers]
      exact List.forall_mem_nil _

end SciCalc
