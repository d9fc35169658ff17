import SciCalc.Expression.Brackets
import SciCalc.Expression.Lexeme

/-!
# Parsing

The grammar, from the weakest binding to the strongest:

* additive: multiplicative, then any number of `+` or `-` and multiplicative
* multiplicative: unary, then any number of `*` or `/` and unary
* unary: `-` unary, or power
* power: primary, or primary `^` unary
* primary: a number, an identifier, a function with one additive argument in
  parentheses, or an additive in parentheses

So `^` groups to the right, `-x^2` is `-(x^2)` and `2^-1` is legal. The operand of a
minus sign, an exponent, the inside of parentheses and an argument each lie one
level deeper, and there is room for `maxNesting` levels.
-/

namespace SciCalc

/-- How deep an expression may be nested. -/
def maxNesting : Nat := 200

/-- A parser takes tokens from the front and returns a tree with the tokens it left. -/
abbrev Parser (ν : Type) : Type :=
  List (Lexeme ν) → Except (ParseError ν) (Expr ν × List (Lexeme ν))

namespace Parser

variable {ν : Type}

/-- The parsers that work one level deeper. Each is given the position to blame when
no level is left. -/
structure Inner (ν : Type) where
  unary : Nat → Parser ν
  additive : Nat → Parser ν

/-- An operand is missing in front of these tokens; `last` is the last token of the
whole text. -/
def missingOperand (last : Option (Lexeme ν)) : List (Lexeme ν) → ParseError ν
  | found :: _ => .here found.position (.unexpected found.token)
  | [] =>
    match last with
    | none => ⟨.empty, none⟩
    | some final =>
      if final.token.isOperator then .here final.position (.endsWith final.token)
      else .here final.position .unexpectedEnd

/-- The tokens behind the parenthesis that closes the one at `opening`. -/
def closing (opening : Nat) : List (Lexeme ν) → Except (ParseError ν) (List (Lexeme ν))
  | ⟨.rightParen, _⟩ :: rest => .ok rest
  | found :: _ => .error (.here found.position (.unclosed found.token))
  | [] => .error (.here opening .unbalanced)

/-- The operator at a level of the grammar that the token is, if it is one. -/
def additiveOp? : Token ν → Option BinaryOp
  | .operator .add => some .add
  | .operator .sub => some .sub
  | _ => none

def multiplicativeOp? : Token ν → Option BinaryOp
  | .operator .mul => some .mul
  | .operator .div => some .div
  | _ => none

/-- Continues a chain of operands that groups to the left. An operator is taken in
every round, so as many rounds as there are tokens suffice. -/
def chainFrom (op? : Token ν → Option BinaryOp) (operand : Parser ν) :
    Nat → Expr ν → Parser ν
  | rounds + 1, left, next :: rest =>
    match op? next.token with
    | none => .ok (left, next :: rest)
    | some op => do
      let (right, rest) ← operand rest
      chainFrom op? operand rounds (.binary op left right) rest
  | _, left, tokens => .ok (left, tokens)

def chain (op? : Token ν → Option BinaryOp) (operand : Parser ν) : Parser ν :=
  fun tokens => do
  let (left, rest) ← operand tokens
  chainFrom op? operand rest.length left rest

/-- Continues a list of arguments separated by commas; each comma takes a token. -/
def argumentsFrom (argument : Parser ν) :
    Nat → List (Lexeme ν) → Except (ParseError ν) (List (Expr ν) × List (Lexeme ν))
  | rounds + 1, ⟨.comma, _⟩ :: rest => do
    let (first, rest) ← argument rest
    let (more, rest) ← argumentsFrom argument rounds rest
    return (first :: more, rest)
  | _, tokens => .ok ([], tokens)

/-- The arguments of a call, with the parenthesis that closes it; `opening` is where
it was opened. -/
def arguments (argument : Parser ν) (opening : Nat) :
    List (Lexeme ν) → Except (ParseError ν) (List (Expr ν) × List (Lexeme ν))
  | ⟨.rightParen, _⟩ :: rest => .ok ([], rest)
  | tokens => do
    let (first, rest) ← argument tokens
    let (more, rest) ← argumentsFrom argument rest.length rest
    let rest ← closing opening rest
    return (first :: more, rest)

/-- A call of a name, from the token behind its opening parenthesis on. -/
def call (inner : Inner ν) (name : String) (position opening : Nat) : Parser ν :=
  fun tokens => match Elementary.ofName? name with
  | none => .error (.here position (.unknownFunction name))
  | some f => do
    let (args, rest) ← arguments (inner.additive opening) opening tokens
    if args.length = f.arity then
      return (.call name args, rest)
    else
      throw (.here position (.argumentCount name f.arity args.length))

def primary (last : Option (Lexeme ν)) (inner : Inner ν) : Parser ν
  | ⟨.number value, _⟩ :: rest => .ok (.number value, rest)
  | ⟨.identifier name, position⟩ :: ⟨.leftParen, opening⟩ :: rest =>
    call inner name position opening rest
  | ⟨.identifier name, position⟩ :: rest =>
    if (Elementary.ofName? name).isSome then
      .error (.here position (.bareFunction name))
    else .ok (.identifier name, rest)
  | ⟨.leftParen, _⟩ :: ⟨.rightParen, position⟩ :: _ =>
    .error (.here position .emptyParentheses)
  | ⟨.leftParen, opening⟩ :: rest => do
    let (inside, rest) ← inner.additive opening rest
    let rest ← closing opening rest
    return (inside, rest)
  | tokens => .error (missingOperand last tokens)

def power (last : Option (Lexeme ν)) (inner : Inner ν) : Parser ν := fun tokens => do
  let (base, rest) ← primary last inner tokens
  match rest with
  | ⟨.operator .pow, _⟩ :: rest =>
    let position := ((rest.head?.or last).map Lexeme.position).getD 0
    let (exponent, rest) ← inner.unary position rest
    return (.binary .pow base exponent, rest)
  | _ => return (base, rest)

def unary (last : Option (Lexeme ν)) (inner : Inner ν) : Parser ν
  | ⟨.operator .sub, position⟩ :: rest => do
    let (operand, rest) ← inner.unary position rest
    return (.neg operand, rest)
  | tokens => power last inner tokens

def multiplicative (last : Option (Lexeme ν)) (inner : Inner ν) : Parser ν :=
  chain multiplicativeOp? (unary last inner)

def additive (last : Option (Lexeme ν)) (inner : Inner ν) : Parser ν :=
  chain additiveOp? (multiplicative last inner)

/-- The parsers of the next level when there is room for so many levels. -/
def inner (last : Option (Lexeme ν)) : Nat → Inner ν
  | 0 =>
    { unary := fun position _ => .error (.here position .tooDeep)
      additive := fun position _ => .error (.here position .tooDeep) }
  | room + 1 =>
    { unary := fun _ tokens => unary last (inner last room) tokens
      additive := fun _ tokens => additive last (inner last room) tokens }

end Parser

variable {ν : Type}

/-- The tree of a whole list of tokens. -/
def parseLexemes (lexemes : List (Lexeme ν)) : Except (ParseError ν) (Expr ν) := do
  let last := lexemes.getLast?
  let (e, rest) ← Parser.additive last (Parser.inner last maxNesting) lexemes
  match rest with
  | [] => return e
  | found :: _ => throw (.here found.position (.unexpected found.token))

/-- The tree of a text given as characters. Blank texts and unmatched brackets are
found before anything else. -/
def parseChars [Literal ν] (text : List Char) : Except (ParseError ν) (Expr ν) := do
  if text.all Text.isBlank then
    throw ⟨.empty, none⟩
  match Brackets.unmatched text with
  | some position => throw (.here position .unbalanced)
  | none =>
    let lexemes ← Lexeme.ofText text
    parseLexemes lexemes

/-- The tree that a text denotes. -/
def parse [Literal ν] (text : String) : Except (ParseError ν) (Expr ν) :=
  parseChars text.toList

end SciCalc
