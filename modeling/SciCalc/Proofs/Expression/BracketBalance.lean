import SciCalc.Proofs.Expression.Grammar
import SciCalc.Proofs.Outcome

/-!
# Brackets in texts and in phrases

Placing stars and cutting a text into tokens keeps its brackets in their
order, and the brackets of a phrase are balanced. So the look at the brackets
that comes before everything else never stops a text whose tokens are a
phrase, and neither does the look for a blank text.
-/

namespace SciCalc

open Grammar Outcome

variable {ν : Type}

namespace Brackets

def isBracket (c : Char) : Bool :=
  c == '(' || c == ')'

theorem isBracket_cases (c : Char) :
    isBracket c = false ∨ c = '(' ∨ c = ')' := by
  rw [← Bool.not_eq_true, isBracket, Bool.or_eq_true, beq_iff_eq, beq_iff_eq]
  exact (em _).symm

/-- How many brackets are open behind a text, when so many are open in front
of it; nothing when a bracket closes too many. -/
def openBehind : Nat → List Char → Option Nat
  | count, [] => some count
  | count, '(' :: rest => openBehind (count + 1) rest
  | 0, ')' :: _ => none
  | count + 1, ')' :: rest => openBehind count rest
  | count, _ :: rest => openBehind count rest

theorem openBehind_of_not_isBracket {c : Char} (hc : isBracket c = false)
    (count : Nat) (rest : List Char) :
    openBehind count (c :: rest) = openBehind count rest := by
  have hopen : c ≠ '(' := by
    rintro rfl
    cases hc
  have hclose : c ≠ ')' := by
    rintro rfl
    cases hc
  simp [openBehind, hclose]

theorem openBehind_append (count : Nat) (before after : List Char) :
    openBehind count (before ++ after) =
      (openBehind count before).bind fun between =>
        openBehind between after := by
  fun_induction openBehind count before with
  | case1 count => rfl
  | case2 count rest ih => exact ih
  | case3 rest => rfl
  | case4 count rest ih => exact ih
  | case5 count c rest hopen hclose hclose' ih =>
      rw [← ih, List.cons_append]
      refine openBehind_of_not_isBracket ?_ _ _
      cases count <;> simp_all [isBracket]

/-- Only the brackets of a text count. -/
theorem openBehind_filter (count : Nat) (text : List Char) :
    openBehind count (text.filter isBracket) = openBehind count text := by
  induction text generalizing count with
  | nil => rfl
  | cons c rest ih =>
      rcases isBracket_cases c with hc | rfl | rfl
      · rw [List.filter_cons_of_neg (by simp [hc]), ih,
          openBehind_of_not_isBracket hc]
      · exact ih (count + 1)
      · cases count with
        | zero => rfl
        | succ count => exact ih count

theorem scan_of_not_isBracket {c : Char} (hc : isBracket c = false)
    (opened : List Nat) (index : Nat) (rest : List Char) :
    scan opened index (c :: rest) = scan opened (index + 1) rest := by
  simp only [isBracket, Bool.or_eq_false_iff, beq_eq_false_iff_ne] at hc
  simp [scan, hc.1, hc.2]

/-- The scan finds nothing exactly when the brackets come out even. -/
theorem scan_eq_none_iff {opened : List Nat} {index : Nat} {text : List Char} :
    scan opened index text = none ↔
      openBehind opened.length text = some 0 := by
  induction text generalizing opened index with
  | nil => simp [scan, openBehind]
  | cons c rest ih =>
      rcases isBracket_cases c with hc | rfl | rfl
      · rw [scan_of_not_isBracket hc, ih, openBehind_of_not_isBracket hc]
      · exact ih
      · cases opened with
        | nil => simp [scan, openBehind]
        | cons _ outer => exact ih

end Brackets

/-- The bracket that a token is. -/
def Token.bracket? : Token ν → Option Char
  | .leftParen => some '('
  | .rightParen => some ')'
  | _ => none

namespace Grammar

open Brackets

theorem openBehind_between {before after : List Char} {opened between : Nat}
    (hbefore : openBehind opened before = some between) :
    openBehind opened (before ++ after) = openBehind between after := by
  rw [openBehind_append, hbefore]
  rfl

/-- Behind a phrase as many brackets are open as in front of it. -/
theorem Derives.openBehind_brackets {level : Level} {tokens : List (Token ν)}
    {e : Expr ν} {depth : Nat} (h : Derives level tokens e depth)
    (count : Nat) :
    openBehind count (tokens.filterMap Token.bracket?) = some count := by
  induction h generalizing count with
  | number value => rfl
  | identifier hname => rfl
  | call hname hargument ih =>
      simp only [List.filterMap_cons, List.filterMap_append, Token.bracket?,
        openBehind]
      rw [openBehind_between (ih (count + 1))]
      rfl
  | parenthesised hinside ih =>
      simp only [List.filterMap_cons, List.filterMap_append, Token.bracket?,
        openBehind]
      rw [openBehind_between (ih (count + 1))]
      rfl
  | ofPrimary h ih => exact ih count
  | power hbase hexponent ihBase ihExponent =>
      rw [List.filterMap_append, openBehind_between (ihBase count)]
      exact ihExponent count
  | ofPower h ih => exact ih count
  | neg hoperand ih => exact ih count
  | ofUnary h ih => exact ih count
  | product hop hleft hright ihLeft ihRight =>
      rw [List.filterMap_append, openBehind_between (ihLeft count)]
      exact ihRight count
  | ofMultiplicative h ih => exact ih count
  | sum hop hleft hright ihLeft ihRight =>
      rw [List.filterMap_append, openBehind_between (ihLeft count)]
      exact ihRight count

end Grammar

end SciCalc
