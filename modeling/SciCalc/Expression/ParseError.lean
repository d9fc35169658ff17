import SciCalc.Expression.Token

/-!
# Parse errors

Why a text is no expression, and where. Positions are indices into the text as
typed; only a blank text has no position.
-/

namespace SciCalc

inductive ParseReason (ν : Type) where
  | empty
  | unbalanced
  | malformedNumber (run : String)
  | unknownCharacter (c : Char)
  | tooDeep
  /-- The text ends where the operand of this operator should stand. -/
  | endsWith (operator : Token ν)
  | unexpectedEnd
  | unexpected (token : Token ν)
  | bareFunction (name : String)
  | emptyParentheses
  | unknownFunction (name : String)
  | argumentCount (function : String) (expected got : Nat)
  /-- This token stands where a closing parenthesis should. -/
  | unclosed (found : Token ν)
  /-- A reason given in words. -/
  | stated (text : String)

structure ParseError (ν : Type) where
  reason : ParseReason ν
  position : Option Nat

namespace ParseReason

variable {ν : Type} [Literal ν]

def message : ParseReason ν → String
  | empty => "empty expression"
  | unbalanced => "unbalanced parentheses"
  | malformedNumber run => "malformed number '" ++ run ++ "'"
  | unknownCharacter c => "unknown character '" ++ String.singleton c ++ "'"
  | tooDeep => "expression is nested too deeply"
  | endsWith operator => "expression ends with " ++ operator.describe
  | unexpectedEnd => "unexpected end of expression"
  | unexpected token => "unexpected " ++ token.describe
  | bareFunction name => "function '" ++ name ++ "' must be followed by '('"
  | emptyParentheses => "empty parentheses"
  | unknownFunction name => "unknown function '" ++ name ++ "'"
  | argumentCount function expected got =>
    "function '" ++ function ++ "' expects " ++ toString expected ++
      " argument(s), got " ++ toString got
  | unclosed found => "expected ')' but found " ++ found.describe
  | stated text => text

end ParseReason

namespace ParseError

variable {ν : Type}

/-- An error at a position. -/
def here (position : Nat) (reason : ParseReason ν) : ParseError ν :=
  ⟨reason, some position⟩

def message [Literal ν] (e : ParseError ν) : String :=
  match e.position with
  | some position =>
    "parse error at position " ++ toString position ++ ": " ++ e.reason.message
  | none => "parse error: " ++ e.reason.message

end ParseError

end SciCalc
