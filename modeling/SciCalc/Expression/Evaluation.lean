import SciCalc.Expression.Basic
import SciCalc.Expression.Context

/-!
# Evaluation

A tree is evaluated in a context from left to right. Only its structure can fail: an
identifier without a value, an unknown function, a call with the wrong number of
arguments. Division by zero, roots of negative numbers and the like give infinities
and values that are not numbers.
-/

namespace SciCalc

inductive EvalError where
  | unknownIdentifier (name : String)
  | wrongArity (function : String) (expected got : Nat)
  deriving DecidableEq, Repr

namespace EvalError

def message : EvalError → String
  | unknownIdentifier name => "unknown identifier '" ++ name ++ "'"
  | wrongArity function expected got =>
    "function '" ++ function ++ "' expects " ++ toString expected ++
      " argument(s), got " ++ toString got

end EvalError

/-- The value of a tree in a context. A call is checked before its argument is
evaluated. -/
def Expr.evaluate (c : Context) : Expr Float → Except EvalError Float
  | .number value => .ok value
  | .identifier name =>
    match c.resolve? name with
    | some value => .ok value
    | none => .error (.unknownIdentifier name)
  | .neg operand => do
    let value ← operand.evaluate c
    return -value
  | .binary op left right => do
    let a ← left.evaluate c
    let b ← right.evaluate c
    return op.apply a b
  | .call function [argument] =>
    match Elementary.ofName? function with
    | none => .error (.unknownIdentifier function)
    | some f => do
      let value ← argument.evaluate c
      return f.apply c.mode value
  | .call function arguments =>
    match Elementary.ofName? function with
    | none => .error (.unknownIdentifier function)
    | some f => .error (.wrongArity function f.arity arguments.length)

/-- A tree as a function of one of its variables. The curve owns a context, and a
call rebinds the variable in it. -/
structure Curve where
  body : Expr Float
  parameter : String
  context : Context

namespace Curve

/-- One call: the outcome, and the curve as the call leaves it. -/
def call (x : Float) : StateM Curve (Except EvalError Float) := fun curve =>
  let context := curve.context.bind curve.parameter x
  (curve.body.evaluate context, { curve with context })

theorem call_eq (body : Expr Float) (parameter : String) (c : Context) (x : Float) :
    call x ⟨body, parameter, c⟩ =
      (body.evaluate (c.bind parameter x), ⟨body, parameter, c.bind parameter x⟩) := rfl

/-- Calls at several points, one after the other. -/
def callAll : List Float → StateM Curve (List (Except EvalError Float))
  | [] => return []
  | x :: xs => do
    let y ← call x
    let ys ← callAll xs
    return y :: ys

end Curve

end SciCalc
