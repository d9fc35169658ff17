import SciCalc.Expression.Evaluation
import SciCalc.Proofs.Outcome

/-!
# Faults of a tree

The evaluation of a tree fails for its structure only: for a name without a
value, for an unknown function or for a wrong number of arguments. The faults
of a tree are listed as a reading from left to right meets them, a call before
its arguments, and the first of them decides how the evaluation ends.
-/

namespace SciCalc

open Outcome

variable {ν : Type}

/-- What is wrong with a call of this name with so many arguments. -/
def callFaults (function : String) (count : Nat) : List EvalError :=
  match Elementary.ofName? function with
  | none => [.unknownIdentifier function]
  | some f =>
    if count = f.arity then [] else [.wrongArity function f.arity count]

namespace Expr

mutual

/-- The faults of a tree in a context, from left to right. -/
def faults (c : Context) : Expr ν → List EvalError
  | number _ => []
  | identifier name =>
    if (c.resolve? name).isSome then [] else [.unknownIdentifier name]
  | neg operand => operand.faults c
  | binary _ left right => left.faults c ++ right.faults c
  | call function arguments =>
    callFaults function arguments.length ++ faultsAll c arguments

def faultsAll (c : Context) : List (Expr ν) → List EvalError
  | [] => []
  | e :: es => e.faults c ++ faultsAll c es

end

end Expr

/-- The first fault is the outcome, and without faults there is a value. -/
def Settled {α : Type} (faults : List EvalError)
    (outcome : Except EvalError α) : Prop :=
  match faults with
  | [] => ∃ value, outcome = .ok value
  | first :: _ => outcome = .error first

namespace Settled

variable {α β : Type} {faults faults' : List EvalError}

theorem ok (value : α) : Settled [] (.ok value : Except EvalError α) :=
  ⟨value, rfl⟩

theorem error (first : EvalError) (rest : List EvalError) :
    Settled (first :: rest) (.error first : Except EvalError α) := rfl

/-- Faults of a later step count only when there are none before. -/
theorem bind {first : Except EvalError α} {next : α → Except EvalError β}
    (hfirst : Settled faults first)
    (hnext : ∀ value, Settled faults' (next value)) :
    Settled (faults ++ faults') (first >>= next) := by
  cases faults with
  | nil =>
      obtain ⟨value, rfl⟩ := hfirst
      exact hnext value
  | cons fault rest =>
      obtain rfl : first = .error fault := hfirst
      exact error fault _

/-- A last step that cannot fail. -/
theorem map {first : Except EvalError α} (hfirst : Settled faults first)
    (f : α → β) : Settled faults (first >>= fun value => pure (f value)) := by
  have hwhole := hfirst.bind fun value => ok (f value)
  rwa [List.append_nil] at hwhole

end Settled

/-- A tree is evaluated unless it has a fault, and then the first one is
reported. The induction follows evaluation, which tells calls with one argument
from all others. -/
theorem evaluate_settled (c : Context) (e : Expr Float) :
    Settled (e.faults c) (e.evaluate c) := by
  fun_induction Expr.evaluate c e with
  | case1 value => exact .ok value
  | case2 name value hvalue =>
      simp only [Expr.faults, hvalue, Option.isSome_some, if_true]
      exact .ok value
  | case3 name hnone =>
      simp only [Expr.faults, hnone, Option.isSome_none, Bool.false_eq_true,
        if_false]
      exact .error _ _
  | case4 operand ih => exact ih.map _
  | case5 op left right ihLeft ihRight =>
      exact ihLeft.bind fun a => ihRight.map _
  | case6 function argument hnone =>
      simp only [Expr.faults, callFaults, hnone]
      exact .error _ _
  | case7 function argument f hf ih =>
      have hcall : callFaults function [argument].length = [] := by
        simp [callFaults, hf, Elementary.arity]
      simp only [Expr.faults, Expr.faultsAll, hcall, List.append_nil,
        List.nil_append]
      exact ih.map _
  | case8 function arguments hmany hnone =>
      simp only [Expr.faults, callFaults, hnone]
      exact .error _ _
  | case9 function arguments hmany f hf =>
      have hcount : arguments.length ≠ f.arity := by
        intro hone
        obtain ⟨argument, hargument⟩ := List.length_eq_one_iff.1 hone
        exact hmany argument hargument
      simp only [Expr.faults, callFaults, hf, if_neg hcount]
      exact .error _ _

end SciCalc
