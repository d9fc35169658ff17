import Mathlib.Order.Filter.AtTopBot.Basic
import SciCalc.Expression.Cursor

/-!
# More calls

A procedure that is not cut off makes no difference between the calls it needs
and more of them: it ends in the same way, with the cursor in the same state. So
a procedure has one way to end at most, however many calls there are.
-/

namespace SciCalc.Cursor

variable {ν α β : Type}

/-! ## Approximating -/

/-- Where the first procedure leaves something, the second leaves the same. -/
def Approximates (few many : CursorM ν α) : Prop :=
  ∀ ⦃c left⦄, few.run.run c = some left → many.run.run c = some left

theorem Approximates.refl (procedure : CursorM ν α) :
    Approximates procedure procedure := fun _ _ hrun => hrun

theorem cutOff_approximates (procedure : CursorM ν α) :
    Approximates cutOff procedure := fun _ _ hrun => nomatch hrun

namespace Approximates

variable {few many : CursorM ν α}

theorem trans {more : CursorM ν α} (h : Approximates few many)
    (hmore : Approximates many more) : Approximates few more :=
  fun _ _ hrun => hmore (h hrun)

theorem bind {nextFew nextMany : α → CursorM ν β} (h : Approximates few many)
    (hnext : ∀ value, Approximates (nextFew value) (nextMany value)) :
    Approximates (few >>= nextFew) (many >>= nextMany) := by
  intro c left hrun
  obtain ⟨⟨outcome, c'⟩, hfirst, hrest⟩ := Option.bind_eq_some_iff.1 hrun
  refine Option.bind_eq_some_iff.2 ⟨(outcome, c'), h hfirst, ?_⟩
  cases outcome with
  | error err => exact hrest
  | ok value => exact hnext value hrest

theorem after (first : CursorM ν β) {nextFew nextMany : β → CursorM ν α}
    (hnext : ∀ value, Approximates (nextFew value) (nextMany value)) :
    Approximates (first >>= nextFew) (first >>= nextMany) :=
  (refl first).bind hnext

/-- The level is closed behind the outcome that both have. -/
theorem nested (h : Approximates few many) (position : ℕ) :
    Approximates (nested position few) (nested position many) := by
  refine (refl (enter position)).bind fun _ => ?_
  intro c left hrun
  obtain ⟨opened, hfirst, hrest⟩ := Option.bind_eq_some_iff.1 hrun
  exact Option.bind_eq_some_iff.2 ⟨opened, h hfirst, hrest⟩

end Approximates

/-! ## One call more -/

/-- With one call more every procedure does what it did. -/
structure Grows (ν : Type) (calls : ℕ) : Prop where
  operand : ∀ level, Approximates (operand calls level : CursorM ν (Expr ν))
    (operand (calls + 1) level)
  chain : ∀ level, Approximates (chain calls level : CursorM ν (Expr ν))
    (chain (calls + 1) level)
  chainFrom : ∀ level (e : Expr ν),
    Approximates (chainFrom calls level e) (chainFrom (calls + 1) level e)
  unary : Approximates (unary calls : CursorM ν (Expr ν)) (unary (calls + 1))
  power : Approximates (power calls : CursorM ν (Expr ν)) (power (calls + 1))
  primary :
    Approximates (primary calls : CursorM ν (Expr ν)) (primary (calls + 1))
  call : ∀ name position,
    Approximates (call calls name position : CursorM ν (Expr ν))
      (call (calls + 1) name position)
  arguments : ∀ opening,
    Approximates (arguments calls opening : CursorM ν (List (Expr ν)))
      (arguments (calls + 1) opening)
  argumentsFrom : ∀ opening (args : List (Expr ν)),
    Approximates (argumentsFrom calls opening args)
      (argumentsFrom (calls + 1) opening args)

namespace Grows

variable {calls : ℕ}

theorem zero : Grows ν 0 where
  operand _ := cutOff_approximates _
  chain _ := cutOff_approximates _
  chainFrom _ _ := cutOff_approximates _
  unary := cutOff_approximates _
  power := cutOff_approximates _
  primary := cutOff_approximates _
  call _ _ := cutOff_approximates _
  arguments _ := cutOff_approximates _
  argumentsFrom _ _ := cutOff_approximates _

/-- What a procedure does itself does not depend on the number of calls, and the
procedures that it calls have one call more as well. -/
theorem succ (h : Grows ν calls) : Grows ν (calls + 1) where
  operand level := by
    cases level <;> simp only [Cursor.operand]
    · exact h.chain .multiplicative
    · exact h.unary
  chain level := by
    simp only [Cursor.chain]
    exact (h.operand level).bind fun left => h.chainFrom level left
  chainFrom level left := by
    simp only [Cursor.chainFrom]
    refine .after peek fun next => ?_
    split
    · exact .refl _
    · exact .after skip fun _ =>
        (h.operand level).bind fun _ => h.chainFrom level _
  unary := by
    simp only [Cursor.unary]
    refine .after peek fun next => ?_
    split
    · exact .after skip fun _ => (h.unary.nested _).bind fun _ => .refl _
    · exact h.power
  power := by
    simp only [Cursor.power]
    refine h.primary.bind fun base => .after (eat .power) fun found => ?_
    split
    · exact .after peek fun _ => .after get fun _ =>
        (h.unary.nested _).bind fun _ => .refl _
    · exact .refl _
  primary := by
    simp only [Cursor.primary]
    refine .after peek fun next => ?_
    split
    · exact .refl _
    · refine .after skip fun _ => .after peek fun next => ?_
      split
      · exact h.call _ _
      · exact .refl _
    · refine .after skip fun _ => .after peek fun next => ?_
      split
      · exact .refl _
      · exact ((h.chain .additive).nested _).bind fun _ => .refl _
    · exact .refl _
  call name position := by
    simp only [Cursor.call]
    split
    · exact .refl _
    · exact .after advance fun _ => (h.arguments _).bind fun _ => .refl _
  arguments opening := by
    simp only [Cursor.arguments]
    refine .after (eat .rightParen) fun found => ?_
    split
    · exact .refl _
    · exact (h.argumentsFrom opening []).bind fun _ => .refl _
  argumentsFrom opening args := by
    simp only [Cursor.argumentsFrom]
    refine ((h.chain .additive).nested opening).bind fun argument =>
      .after (eat .comma) fun found => ?_
    split
    · exact h.argumentsFrom opening (args ++ [argument])
    · exact .refl _

end Grows

theorem grows : ∀ calls, Grows ν calls
  | 0 => .zero
  | calls + 1 => (grows calls).succ

/-! ## Ending -/

section Ending

variable {procedure : ℕ → CursorM ν α}

/-- There are calls enough for the procedure to end with this outcome, with the
cursor in this state. -/
def Ends (procedure : ℕ → CursorM ν α) (c : Cursor ν)
    (outcome : Except (ParseError ν) α) (c' : Cursor ν) : Prop :=
  ∃ calls, (procedure calls).run.run c = some (outcome, c')

theorem approximates_of_le
    (hgrows : ∀ calls, Approximates (procedure calls) (procedure (calls + 1)))
    {calls more : ℕ} (h : calls ≤ more) :
    Approximates (procedure calls) (procedure more) := by
  induction more, h using Nat.le_induction with
  | base => exact .refl _
  | succ more _ ih => exact ih.trans (hgrows more)

theorem Ends.unique
    (hgrows : ∀ calls, Approximates (procedure calls) (procedure (calls + 1)))
    {c c₁ c₂ : Cursor ν} {outcome₁ outcome₂ : Except (ParseError ν) α}
    (h₁ : Ends procedure c outcome₁ c₁) (h₂ : Ends procedure c outcome₂ c₂) :
    outcome₁ = outcome₂ ∧ c₁ = c₂ := by
  obtain ⟨calls₁, hrun₁⟩ := h₁
  obtain ⟨calls₂, hrun₂⟩ := h₂
  have hmax₁ := approximates_of_le hgrows (le_max_left calls₁ calls₂) hrun₁
  have hmax₂ := approximates_of_le hgrows (le_max_right calls₁ calls₂) hrun₂
  exact Prod.mk.inj (Option.some.inj (hmax₁.symm.trans hmax₂))

end Ending

end SciCalc.Cursor
