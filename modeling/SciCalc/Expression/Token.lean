import SciCalc.Expression.Basic

/-!
# Tokens

The words of an expression: numbers, identifiers, operators, parentheses and commas.
-/

namespace SciCalc

inductive Token (ν : Type) where
  | number (value : ν)
  | identifier (name : String)
  | operator (op : BinaryOp)
  | leftParen
  | rightParen
  | comma
  deriving DecidableEq, Repr

namespace Token

variable {ν : Type}

/-- The token that a single character stands for. -/
def ofChar? : Char → Option (Token ν)
  | '+' => some (operator .add)
  | '-' => some (operator .sub)
  | '*' => some (operator .mul)
  | '/' => some (operator .div)
  | '^' => some (operator .pow)
  | '(' => some leftParen
  | ')' => some rightParen
  | ',' => some comma
  | _ => none

def isOperator : Token ν → Bool
  | operator _ => true
  | _ => false

/-- The token in an error message. -/
def describe [Literal ν] : Token ν → String
  | number value => "number " ++ Literal.text value
  | identifier name => "identifier '" ++ name ++ "'"
  | operator op => "operator '" ++ op.symbol ++ "'"
  | leftParen => "'('"
  | rightParen => "')'"
  | comma => "','"

end Token

/-- A token and the index of its first character in the text as typed. -/
structure Lexeme (ν : Type) where
  token : Token ν
  position : Nat
  deriving DecidableEq, Repr

end SciCalc
