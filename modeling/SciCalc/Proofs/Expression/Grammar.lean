import Mathlib
import SciCalc.Expression.Parser

/-!
# The grammar of expressions

The grammar as a relation between lists of tokens and trees. It knows nothing
of positions, of reading from left to right or of errors. Next to the tree it
records how deep the derivation is nested: the operand of a minus sign, an
exponent, the inside of parentheses and an argument each lie one level deeper.
-/

namespace SciCalc

/-- The levels of the grammar, from the weakest binding to the strongest. -/
inductive Level where
  | additive | multiplicative | unary | power | primary
  deriving DecidableEq, Repr

/-- The levels whose phrases may begin with a minus sign. -/
def Level.signed : Level → Bool
  | .additive | .multiplicative | .unary => true
  | .power | .primary => false

/-- The tokens that can begin a phrase, with or without a sign. -/
def Token.opens {ν : Type} (signed : Bool) : Token ν → Bool
  | .number _ | .identifier _ | .leftParen => true
  | .operator .sub => signed
  | _ => false

theorem Token.opens_true {ν : Type} {signed : Bool} {token : Token ν}
    (h : token.opens signed = true) : token.opens true = true := by
  unfold Token.opens at h ⊢
  split at h <;> simp_all

namespace Grammar

variable {ν : Type}

/-- At this level the tokens derive the tree, and `depth` is the greatest
number of nested phrases that a point of the derivation lies under. Chains
group to the left, so their left operand is again a chain. -/
inductive Derives : Level → List (Token ν) → Expr ν → Nat → Prop
  | number (value : ν) :
      Derives .primary [.number value] (.number value) 0
  | identifier {name : String} (hname : Elementary.ofName? name = none) :
      Derives .primary [.identifier name] (.identifier name) 0
  | call {name : String} {f : Elementary} {tokens : List (Token ν)}
      {argument : Expr ν} {depth : Nat}
      (hname : Elementary.ofName? name = some f)
      (hargument : Derives .additive tokens argument depth) :
      Derives .primary
        (.identifier name :: .leftParen :: (tokens ++ [.rightParen]))
        (.call name [argument]) (depth + 1)
  | parenthesised {tokens : List (Token ν)} {inside : Expr ν} {depth : Nat}
      (hinside : Derives .additive tokens inside depth) :
      Derives .primary (.leftParen :: (tokens ++ [.rightParen])) inside
        (depth + 1)
  | ofPrimary {tokens : List (Token ν)} {e : Expr ν} {depth : Nat}
      (h : Derives .primary tokens e depth) : Derives .power tokens e depth
  | power {before after : List (Token ν)} {base exponent : Expr ν}
      {depth depth' : Nat} (hbase : Derives .primary before base depth)
      (hexponent : Derives .unary after exponent depth') :
      Derives .power (before ++ .operator .pow :: after)
        (.binary .pow base exponent) (max depth (depth' + 1))
  | ofPower {tokens : List (Token ν)} {e : Expr ν} {depth : Nat}
      (h : Derives .power tokens e depth) : Derives .unary tokens e depth
  | neg {tokens : List (Token ν)} {operand : Expr ν} {depth : Nat}
      (hoperand : Derives .unary tokens operand depth) :
      Derives .unary (.operator .sub :: tokens) (.neg operand) (depth + 1)
  | ofUnary {tokens : List (Token ν)} {e : Expr ν} {depth : Nat}
      (h : Derives .unary tokens e depth) :
      Derives .multiplicative tokens e depth
  | product {op : BinaryOp} {before after : List (Token ν)}
      {left right : Expr ν} {depth depth' : Nat} (hop : op = .mul ∨ op = .div)
      (hleft : Derives .multiplicative before left depth)
      (hright : Derives .unary after right depth') :
      Derives .multiplicative (before ++ .operator op :: after)
        (.binary op left right) (max depth depth')
  | ofMultiplicative {tokens : List (Token ν)} {e : Expr ν} {depth : Nat}
      (h : Derives .multiplicative tokens e depth) :
      Derives .additive tokens e depth
  | sum {op : BinaryOp} {before after : List (Token ν)}
      {left right : Expr ν} {depth depth' : Nat} (hop : op = .add ∨ op = .sub)
      (hleft : Derives .additive before left depth)
      (hright : Derives .multiplicative after right depth') :
      Derives .additive (before ++ .operator op :: after)
        (.binary op left right) (max depth depth')

namespace Derives

variable {level : Level} {tokens : List (Token ν)} {e : Expr ν} {depth : Nat}

/-- How a phrase begins. -/
theorem head_cases (h : Derives level tokens e depth) :
    ∃ first others, tokens = first :: others ∧
      first.opens level.signed = true := by
  induction h with
  | number value => exact ⟨_, _, rfl, rfl⟩
  | identifier hname => exact ⟨_, _, rfl, rfl⟩
  | call hname hargument ih => exact ⟨_, _, rfl, rfl⟩
  | parenthesised hinside ih => exact ⟨_, _, rfl, rfl⟩
  | ofPrimary h ih => exact ih
  | power hbase hexponent ih _ =>
      obtain ⟨first, others, rfl, hfirst⟩ := ih
      exact ⟨first, _, rfl, hfirst⟩
  | ofPower h ih =>
      obtain ⟨first, others, rfl, hfirst⟩ := ih
      exact ⟨first, others, rfl, Token.opens_true hfirst⟩
  | neg hoperand ih => exact ⟨_, _, rfl, rfl⟩
  | ofUnary h ih => exact ih
  | product hop hleft hright ih _ =>
      obtain ⟨first, others, rfl, hfirst⟩ := ih
      exact ⟨first, _, rfl, hfirst⟩
  | ofMultiplicative h ih => exact ih
  | sum hop hleft hright ih _ =>
      obtain ⟨first, others, rfl, hfirst⟩ := ih
      exact ⟨first, _, rfl, hfirst⟩

theorem ne_nil (h : Derives level tokens e depth) : tokens ≠ [] := by
  obtain ⟨first, others, rfl, -⟩ := h.head_cases
  exact List.cons_ne_nil first others

theorem primary_toUnary (h : Derives .primary tokens e depth) :
    Derives .unary tokens e depth :=
  .ofPower (.ofPrimary h)

theorem unary_toAdditive (h : Derives .unary tokens e depth) :
    Derives .additive tokens e depth :=
  .ofMultiplicative (.ofUnary h)

end Derives

end Grammar

end SciCalc
