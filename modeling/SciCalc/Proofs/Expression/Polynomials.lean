import SciCalc.Proofs.Decimal.NumberText
import SciCalc.Proofs.Expression.ExactNumbers
import SciCalc.Proofs.Expression.Phrases

/-!
# Expressions that denote polynomials

With each number taken as the decimal that is written and `x` as an
indeterminate, an expression denotes a polynomial over the rationals when it is
made with signs, sums, products, quotients by a constant other than zero and
powers to a whole number. No text denotes two polynomials.
-/

namespace SciCalc

open Polynomial

def Decimal.Scaled.toRat (d : Scaled) : ℚ :=
  d.coefficient * 10 ^ d.exponent

namespace Expr

/-- The expression stands for the polynomial. -/
inductive Denotes : Expr Decimal.Scaled → ℚ[X] → Prop
  | number (value : Decimal.Scaled) : Denotes (.number value) (C value.toRat)
  | parameter : Denotes (.identifier "x") X
  | neg {e : Expr Decimal.Scaled} {p : ℚ[X]} (h : Denotes e p) :
      Denotes (.neg e) (-p)
  | add {left right : Expr Decimal.Scaled} {p q : ℚ[X]}
      (hleft : Denotes left p) (hright : Denotes right q) :
      Denotes (.binary .add left right) (p + q)
  | sub {left right : Expr Decimal.Scaled} {p q : ℚ[X]}
      (hleft : Denotes left p) (hright : Denotes right q) :
      Denotes (.binary .sub left right) (p - q)
  | mul {left right : Expr Decimal.Scaled} {p q : ℚ[X]}
      (hleft : Denotes left p) (hright : Denotes right q) :
      Denotes (.binary .mul left right) (p * q)
  | div {left right : Expr Decimal.Scaled} {p : ℚ[X]} {c : ℚ}
      (hleft : Denotes left p) (hright : Denotes right (C c)) (hc : c ≠ 0) :
      Denotes (.binary .div left right) (p * C c⁻¹)
  | pow {base exponent : Expr Decimal.Scaled} {p : ℚ[X]} {n : ℕ}
      (hbase : Denotes base p) (hexponent : Denotes exponent (C (n : ℚ))) :
      Denotes (.binary .pow base exponent) (p ^ n)

theorem Denotes.unique {e : Expr Decimal.Scaled} {p q : ℚ[X]}
    (h : e.Denotes p) (h' : e.Denotes q) : p = q := by
  induction h generalizing q with
  | number value => cases h'; rfl
  | parameter => cases h'; rfl
  | neg h ih =>
      cases h' with
      | neg h' => rw [ih h']
  | add hleft hright ihLeft ihRight =>
      cases h' with
      | add hleft' hright' => rw [ihLeft hleft', ihRight hright']
  | sub hleft hright ihLeft ihRight =>
      cases h' with
      | sub hleft' hright' => rw [ihLeft hleft', ihRight hright']
  | mul hleft hright ihLeft ihRight =>
      cases h' with
      | mul hleft' hright' => rw [ihLeft hleft', ihRight hright']
  | div hleft hright hc ihLeft ihRight =>
      cases h' with
      | div hleft' hright' hc' =>
        rw [ihLeft hleft', C_injective (ihRight hright')]
  | pow hbase hexponent ihBase ihExponent =>
      cases h' with
      | pow hbase' hexponent' =>
        rw [ihBase hbase',
          Nat.cast_injective (C_injective (ihExponent hexponent'))]

end Expr

/-- The text parses, and with its numbers as they are written the tree stands
for the polynomial. -/
def TextDenotes (text : String) (p : ℚ[X]) : Prop :=
  ∃ e : Expr Decimal.Scaled, parse text = .ok e ∧
    parse text = .ok (e.map Decimal.Scaled.toFloat) ∧ e.Denotes p

namespace TextDenotes

variable {text : String} {p q : ℚ[X]}

theorem of_exact {e : Expr Decimal.Scaled} (hparse : parse text = .ok e)
    (h : e.Denotes p) : TextDenotes text p :=
  ⟨e, hparse, parse_eq_ok_iff_exact.2 ⟨e, hparse, rfl⟩, h⟩

theorem unique (h : TextDenotes text p) (h' : TextDenotes text q) : p = q := by
  obtain ⟨e, hparse, -, he⟩ := h
  obtain ⟨e', hparse', -, he'⟩ := h'
  cases hparse.symm.trans hparse'
  exact he.unique he'

/-- A text that parses denotes what it denotes without its white space. -/
theorem of_strip {e : Expr Float} (hparse : parse text = .ok e)
    (h : TextDenotes (String.ofList (Text.strip text.toList)) p) :
    TextDenotes text p := by
  obtain ⟨tree, htree, -⟩ := parse_eq_ok_iff_exact.1 hparse
  obtain ⟨tree', htree', -, hdenotes⟩ := h
  have hstripped := parseChars_strip htree
  rw [parse, String.toList_ofList, hstripped] at htree'
  cases htree'
  exact of_exact htree hdenotes

end TextDenotes

/-! ## Phrases -/

/-- The text is written for a phrase that denotes the polynomial. -/
def PolynomialPhrase (p : ℚ[X]) (level : Level) (depth : ℕ)
    (text : List Char) : Prop :=
  PhraseOf (·.Denotes p) level depth text

namespace PolynomialPhrase

variable {p q : ℚ[X]} {depth : ℕ} {left right text : List Char}

theorem toUnary (h : PolynomialPhrase p .primary depth text) :
    PolynomialPhrase p .unary depth text :=
  PhraseOf.toUnary h

theorem toMultiplicative (h : PolynomialPhrase p .unary depth text) :
    PolynomialPhrase p .multiplicative depth text :=
  PhraseOf.toMultiplicative h

theorem parameter (depth : ℕ) : PolynomialPhrase X .primary depth ['x'] :=
  PhraseOf.letter depth rfl .parameter

theorem number {value : Decimal.Scaled} (depth : ℕ) (hne : text ≠ [])
    (hrun : ∀ c ∈ text, Lexeme.isNumeric c = true)
    (hread : Decimal.readRun? text = some value) :
    PolynomialPhrase (C value.toRat) .primary depth text :=
  PhraseOf.number depth hne hrun hread (.number value)

theorem power {n : ℕ} (hleft : PolynomialPhrase p .primary (depth + 1) left)
    (hright : PolynomialPhrase (C (n : ℚ)) .unary depth right) :
    PolynomialPhrase (p ^ n) .unary (depth + 1) (left ++ '^' :: right) :=
  PhraseOf.power hleft hright fun _ _ => .pow

theorem multiplied (hleft : PolynomialPhrase p .multiplicative depth left)
    (hright : PolynomialPhrase q .unary depth right) :
    PolynomialPhrase (p * q) .multiplicative depth (left ++ '*' :: right) :=
  PhraseOf.product (.inl rfl) rfl hleft hright fun _ _ => .mul

theorem divided {c : ℚ} (hc : c ≠ 0)
    (hleft : PolynomialPhrase p .multiplicative depth left)
    (hright : PolynomialPhrase (C c) .unary depth right) :
    PolynomialPhrase (p * C c⁻¹) .multiplicative depth
      (left ++ '/' :: right) :=
  PhraseOf.product (.inr rfl) rfl hleft hright fun _ _ h h' => .div h h' hc

theorem textDenotes (h : PolynomialPhrase p .multiplicative depth text)
    (hdepth : depth ≤ maxNesting) : TextDenotes (String.ofList text) p := by
  obtain ⟨e, hparse, he⟩ := h.exists_parse hdepth
  refine .of_exact ?_ he
  rwa [parse, String.toList_ofList]

end PolynomialPhrase

end SciCalc
