import SciCalc.Expression.Parser

/-!
# Parsing with a cursor

The grammar read in place: a cursor moves over all tokens and counts the levels that
are open around it. Each phrase has a procedure that starts in front of it and, when
it succeeds, stands behind it. The procedures call one another and three of them are
loops, and nothing in their text says that they end. So each is told how many calls
may lie inside one another, where another round of a loop counts as a call, and is
cut off behind them. A procedure goes on forever when it is cut off however many
calls there may be.
-/

namespace SciCalc

/-- All tokens of a text, the place of the next one and the number of levels that
are open. -/
structure Cursor (ν : Type) where
  tokens : List (Lexeme ν)
  pos : Nat
  depth : Nat

/-- A procedure moves a cursor and has an outcome, and it leaves the cursor
somewhere when it fails as well. A procedure that is cut off or stuck leaves
neither. -/
abbrev CursorM (ν : Type) : Type → Type :=
  ExceptT (ParseError ν) (StateT (Cursor ν) Option)

namespace Cursor

variable {ν α : Type}

/-! ## Moving -/

/-- In front of the first token. -/
def start (tokens : List (Lexeme ν)) : Cursor ν :=
  ⟨tokens, 0, 0⟩

def peek : CursorM ν (Option (Lexeme ν)) := do
  let c ← get
  return c.tokens[c.pos]?

def skip : CursorM ν Unit :=
  modify fun c => { c with pos := c.pos + 1 }

def advance : CursorM ν (Option (Lexeme ν)) := do
  let next ← peek
  if next.isSome then skip
  return next

/-- The tokens that are passed where they come next and missed where they do not. -/
inductive Mark where
  | power
  | rightParen
  | comma
  deriving DecidableEq, Repr

def Mark.token : Mark → Token ν
  | .power => .operator .pow
  | .rightParen => .rightParen
  | .comma => .comma

def Mark.isToken : Mark → Token ν → Bool
  | .power, .operator .pow => true
  | .rightParen, .rightParen => true
  | .comma, .comma => true
  | _, _ => false

/-- Passes the next token if it is this one, and says whether it was. -/
def eat (mark : Mark) : CursorM ν Bool := do
  let found := (← peek).any fun next => mark.isToken next.token
  if found then skip
  return found

/-! ## Levels -/

/-- Opens a level; the position is blamed when too many are open. -/
def enter (position : Nat) : CursorM ν Unit := do
  if maxNesting ≤ (← get).depth then throw (.here position .tooDeep)
  modify fun c => { c with depth := c.depth + 1 }

/-- Closes a level behind an outcome. Where no level is open there is none to close,
and the procedure is stuck. -/
def leave (outcome : Except (ParseError ν) α) : CursorM ν α := fun c =>
  match c.depth with
  | 0 => none
  | depth + 1 => some (outcome, { c with depth })

/-- Runs a procedure one level deeper. The level is closed behind a failure too. -/
def nested (position : Nat) (procedure : CursorM ν α) : CursorM ν α := do
  enter position
  (do leave (← procedure.run) : StateT (Cursor ν) Option (Except (ParseError ν) α))

/-! ## Tokens that are due -/

def missingOperand : CursorM ν α := do
  let c ← get
  throw (Parser.missingOperand c.tokens.getLast? (c.tokens.drop c.pos))

def expectClosing (opening : Nat) : CursorM ν Unit := do
  match ← advance with
  | some ⟨.rightParen, _⟩ => return
  | some found => throw (.here found.position (.unclosed found.token))
  | none => throw (.here opening .unbalanced)

/-! ## Phrases -/

/-- The levels of the grammar that are chains of operands. -/
inductive ChainLevel where
  | additive
  | multiplicative
  deriving DecidableEq, Repr

def ChainLevel.op? : ChainLevel → Token ν → Option BinaryOp
  | .additive => Parser.additiveOp?
  | .multiplicative => Parser.multiplicativeOp?

/-- Where no more calls may be made. -/
def cutOff : CursorM ν α := fun _ => none

mutual

/-- An operand of a chain: an additive one is made of multiplicative ones, and those
of unary ones. -/
def operand : Nat → ChainLevel → CursorM ν (Expr ν)
  | 0, _ => cutOff
  | calls + 1, .additive => chain calls .multiplicative
  | calls + 1, .multiplicative => unary calls

def chain : Nat → ChainLevel → CursorM ν (Expr ν)
  | 0, _ => cutOff
  | calls + 1, level => do
    chainFrom calls level (← operand calls level)

/-- Continues a chain as long as an operator of its level comes next. -/
def chainFrom : Nat → ChainLevel → Expr ν → CursorM ν (Expr ν)
  | 0, _, _ => cutOff
  | calls + 1, level, left => do
    match (← peek).bind fun next => level.op? next.token with
    | none => return left
    | some op => do
      skip
      chainFrom calls level (.binary op left (← operand calls level))

def unary : Nat → CursorM ν (Expr ν)
  | 0 => cutOff
  | calls + 1 => do
    match ← peek with
    | some ⟨.operator .sub, position⟩ => do
      skip
      return .neg (← nested position (unary calls))
    | _ => power calls

def power : Nat → CursorM ν (Expr ν)
  | 0 => cutOff
  | calls + 1 => do
    let base ← primary calls
    if ← eat .power then
      let next ← peek
      let position := ((next.or (← get).tokens.getLast?).map Lexeme.position).getD 0
      return .binary .pow base (← nested position (unary calls))
    else
      return base

def primary : Nat → CursorM ν (Expr ν)
  | 0 => cutOff
  | calls + 1 => do
    match ← peek with
    | some ⟨.number value, _⟩ => do
      skip
      return .number value
    | some ⟨.identifier name, position⟩ => do
      skip
      match ← peek with
      | some ⟨.leftParen, _⟩ => call calls name position
      | _ =>
        if (Elementary.ofName? name).isSome then
          throw (.here position (.bareFunction name))
        else return .identifier name
    | some ⟨.leftParen, opening⟩ => do
      skip
      match ← peek with
      | some ⟨.rightParen, position⟩ => throw (.here position .emptyParentheses)
      | _ => do
        let inside ← nested opening (chain calls .additive)
        expectClosing opening
        return inside
    | _ => missingOperand

/-- A call of a name at a position, from its opening parenthesis on. -/
def call : Nat → String → Nat → CursorM ν (Expr ν)
  | 0, _, _ => cutOff
  | calls + 1, name, position => do
    match Elementary.ofName? name with
    | none => throw (.here position (.unknownFunction name))
    | some f => do
      let opening := ((← advance).map Lexeme.position).getD position
      let args ← arguments calls opening
      if args.length = f.arity then return .call name args
      else throw (.here position (.argumentCount name f.arity args.length))

def arguments : Nat → Nat → CursorM ν (List (Expr ν))
  | 0, _ => cutOff
  | calls + 1, opening => do
    if ← eat .rightParen then return []
    else
      let args ← argumentsFrom calls opening []
      expectClosing opening
      return args

/-- Takes one more argument, and goes on behind a comma. -/
def argumentsFrom : Nat → Nat → List (Expr ν) → CursorM ν (List (Expr ν))
  | 0, _, _ => cutOff
  | calls + 1, opening, args => do
    let argument ← nested opening (chain calls .additive)
    if ← eat .comma then argumentsFrom calls opening (args ++ [argument])
    else return args ++ [argument]

end

/-- The tree of all tokens in front of the cursor. -/
def whole (calls : Nat) : CursorM ν (Expr ν) := do
  let e ← chain calls .additive
  match ← peek with
  | none => return e
  | some found => throw (.here found.position (.unexpected found.token))

end Cursor

end SciCalc
