import SciCalc.Proofs.Expression.Lexing

/-!
# Moving positions

Positions are passed on by the cutting of a text and by the parser, and nothing
depends on them. So where the characters of a text stand elsewhere its tokens
and its errors stand elsewhere, and all else is the same.
-/

namespace SciCalc

open Outcome ImplicitProduct

variable {ν : Type}

def Placed.relocate (f : Nat → Nat) (p : Placed) : Placed :=
  ⟨p.char, f p.position⟩

def Lexeme.relocate (f : Nat → Nat) (l : Lexeme ν) : Lexeme ν :=
  ⟨l.token, f l.position⟩

def ParseError.relocate (f : Nat → Nat) (err : ParseError ν) : ParseError ν :=
  ⟨err.reason, err.position.map f⟩

theorem ParseError.relocate_injective {f : Nat → Nat}
    (hf : Function.Injective f) :
    Function.Injective (relocate (ν := ν) f) := by
  rintro ⟨reason, position⟩ ⟨reason', position'⟩ heq
  have hposition : position.map f = position'.map f :=
    congrArg ParseError.position heq
  have hreason : reason = reason' := congrArg ParseError.reason heq
  rw [Option.map_injective hf hposition, hreason]

@[simp]
theorem Placed.char_relocate (f : Nat → Nat) (p : Placed) :
    (p.relocate f).char = p.char := rfl

theorem Placed.map_char_relocate (f : Nat → Nat) (placed : List Placed) :
    (placed.map (relocate f)).map Placed.char = placed.map Placed.char := by
  rw [List.map_map]
  rfl

/-- An outcome with the positions of its error moved; what it has found is
moved by `carry`. -/
def relocated {α β : Type} (f : Nat → Nat) (carry : α → β)
    (outcome : Except (ParseError ν) α) : Except (ParseError ν) β :=
  (outcome.map carry).mapError (ParseError.relocate f)

/-- Steps that move positions, one after the other. -/
theorem relocated_bind {α α' β β' : Type} {f : Nat → Nat} {carry : α → α'}
    {carry' : β → β'} {first : Except (ParseError ν) α}
    {first' : Except (ParseError ν) α'} {next : α → Except (ParseError ν) β}
    {next' : α' → Except (ParseError ν) β'}
    (hfirst : first' = relocated f carry first)
    (hnext : ∀ value, next' (carry value) = relocated f carry' (next value)) :
    (first' >>= next') = relocated f carry' (first >>= next) := by
  subst hfirst
  cases first with
  | error err => rfl
  | ok value => exact hnext value

/-! ## Characters and tokens -/

/-- The stars of a text do not depend on where it begins. -/
theorem ImplicitProduct.placeAfter_add (before : Option Char)
    (index offset : Nat) (text : List Char) :
    placeAfter before (index + offset) text =
      (placeAfter before index text).map (Placed.relocate (· + offset)) := by
  induction text generalizing before index with
  | nil => rfl
  | cons c rest ih =>
      have hrest := ih (some c) (index + 1)
      rw [Nat.add_right_comm] at hrest
      cases before with
      | none => simp [placeAfter, hrest, Placed.relocate]
      | some b =>
          simp only [placeAfter, hrest]
          split <;> rfl

namespace Lexeme

/-- A run and what follows it do not depend on positions. -/
theorem run_relocate (f : Nat → Nat) (member : Char → Bool)
    (placed : List Placed) :
    ((placed.map (Placed.relocate f)).takeWhile fun p => member p.char) =
        (placed.takeWhile fun p => member p.char).map (Placed.relocate f) ∧
      ((placed.map (Placed.relocate f)).dropWhile fun p => member p.char) =
        (placed.dropWhile fun p => member p.char).map (Placed.relocate f) := by
  rw [List.takeWhile_map, List.dropWhile_map]
  exact ⟨rfl, rfl⟩

/-- Cutting carries positions along, to the tokens and to the error. -/
theorem ofPlaced_relocate [Literal ν] (f : Nat → Nat) (placed : List Placed) :
    ofPlaced (ν := ν) (placed.map (Placed.relocate f)) =
      relocated f (List.map (relocate f)) (ofPlaced placed) := by
  fun_induction ofPlaced (ν := ν) placed with
  | case1 => rw [List.map_nil, ofPlaced]; rfl
  | case2 p rest hblank ih =>
      rw [List.map_cons, ofPlaced_blank (p := p.relocate f) hblank, ih]
  | case3 p rest _ hnumeric run hread =>
      obtain ⟨htake, -⟩ := run_relocate f isNumeric rest
      rw [List.map_cons, ofPlaced_malformed (p := p.relocate f) hnumeric
        (by rw [htake, Placed.map_char_relocate]; exact hread), htake,
        Placed.map_char_relocate]
      rfl
  | case4 p rest _ hnumeric run value hread ih =>
      obtain ⟨htake, hdrop⟩ := run_relocate f isNumeric rest
      rw [List.map_cons, ofPlaced_number (p := p.relocate f) hnumeric
        (by rw [htake, Placed.map_char_relocate]; exact hread), hdrop]
      exact relocated_bind ih fun _ => rfl
  | case5 p rest _ _ halpha run ih =>
      obtain ⟨htake, hdrop⟩ := run_relocate f Char.isAlpha rest
      rw [List.map_cons, ofPlaced_identifier (p := p.relocate f) halpha, hdrop,
        htake, Placed.map_char_relocate]
      exact relocated_bind ih fun _ => rfl
  | case6 p rest hblank hnumeric halpha htoken =>
      rw [List.map_cons, ofPlaced_unknown (p := p.relocate f)
        (by simpa using hblank) (by simpa using hnumeric)
        (by simpa using halpha) htoken]
      rfl
  | case7 p rest hblank hnumeric halpha token htoken ih =>
      rw [List.map_cons, ofPlaced_symbol (p := p.relocate f)
        (by simpa using hblank) (by simpa using hnumeric)
        (by simpa using halpha) htoken]
      exact relocated_bind ih fun _ => rfl

end Lexeme

/-! ## Parsers -/

namespace Parser

/-- What a parser has found, and the tokens it has left, moved. -/
def carryRest {α : Type} (f : Nat → Nat) (found : α × List (Lexeme ν)) :
    α × List (Lexeme ν) :=
  (found.1, found.2.map (Lexeme.relocate f))

/-- In front of the moved tokens the second parser does what the first one does
in front of the tokens. -/
def Relocates (f : Nat → Nat) (parser parser' : Parser ν) : Prop :=
  ∀ tokens, parser' (tokens.map (Lexeme.relocate f)) =
    relocated f (carryRest f) (parser tokens)

structure Inner.Relocates (f : Nat → Nat) (inner inner' : Inner ν) : Prop where
  unary : ∀ position, Parser.Relocates f (inner.unary position)
    (inner'.unary (f position))
  additive : ∀ position, Parser.Relocates f (inner.additive position)
    (inner'.additive (f position))

variable {f : Nat → Nat}

theorem missingOperand_relocate (final : Lexeme ν) (tokens : List (Lexeme ν)) :
    missingOperand (some (final.relocate f)) (tokens.map (Lexeme.relocate f)) =
      (missingOperand (some final) tokens).relocate f := by
  cases tokens with
  | cons found rest => rfl
  | nil =>
      simp only [missingOperand, List.map_nil, Lexeme.relocate]
      rw [apply_ite (ParseError.relocate f)]
      rfl

theorem closing_relocate (opening : Nat) (tokens : List (Lexeme ν)) :
    closing (f opening) (tokens.map (Lexeme.relocate f)) =
      relocated f (List.map (Lexeme.relocate f)) (closing opening tokens) := by
  match tokens with
  | [] => rfl
  | ⟨token, position⟩ :: rest => cases token <;> rfl

section Chains

variable {operand operand' : Parser ν} {op? : Token ν → Option BinaryOp}
  (hoperand : Relocates f operand operand')

include hoperand

theorem chainFrom_relocates (rounds : Nat) (left : Expr ν) :
    Relocates f (chainFrom op? operand rounds left)
      (chainFrom op? operand' rounds left) := by
  intro tokens
  induction rounds generalizing left tokens with
  | zero => rfl
  | succ rounds ih =>
      match tokens with
      | [] => rfl
      | next :: rest =>
          simp only [List.map_cons, chainFrom, Lexeme.relocate]
          cases op? next.token with
          | none => rfl
          | some op => exact relocated_bind (hoperand rest) fun _ => ih _ _

theorem chain_relocates :
    Relocates f (chain op? operand) (chain op? operand') := by
  intro tokens
  apply relocated_bind (hoperand tokens)
  rintro ⟨left, rest⟩
  have hlength : (rest.map (Lexeme.relocate f)).length = rest.length :=
    List.length_map _
  simp only [carryRest, hlength]
  exact chainFrom_relocates hoperand _ _ _

theorem argumentsFrom_relocate (rounds : Nat) (tokens : List (Lexeme ν)) :
    argumentsFrom operand' rounds (tokens.map (Lexeme.relocate f)) =
      relocated f (carryRest f) (argumentsFrom operand rounds tokens) := by
  induction rounds generalizing tokens with
  | zero => rfl
  | succ rounds ih =>
      cases tokens with
      | nil => rfl
      | cons lexeme rest =>
          obtain ⟨token, position⟩ := lexeme
          cases token with
          | comma =>
              apply relocated_bind (hoperand rest)
              intro first
              exact relocated_bind (ih _) fun _ => rfl
          | number | identifier | operator | leftParen | rightParen => rfl

theorem arguments_relocate (opening : Nat) (tokens : List (Lexeme ν)) :
    arguments operand' (f opening) (tokens.map (Lexeme.relocate f)) =
      relocated f (carryRest f) (arguments operand opening tokens) := by
  have hmany : ∀ tokens : List (Lexeme ν),
      (operand' (tokens.map (Lexeme.relocate f)) >>= fun first =>
        argumentsFrom operand' first.2.length first.2 >>= fun more =>
          closing (f opening) more.2 >>= fun rest =>
            .ok (first.1 :: more.1, rest)) =
      relocated f (carryRest f) (operand tokens >>= fun first =>
        argumentsFrom operand first.2.length first.2 >>= fun more =>
          closing opening more.2 >>= fun rest =>
            .ok (first.1 :: more.1, rest)) := by
    intro tokens
    apply relocated_bind (hoperand tokens)
    intro first
    simp only [carryRest, List.length_map]
    apply relocated_bind (argumentsFrom_relocate hoperand _ _)
    intro more
    exact relocated_bind (closing_relocate _ _) fun _ => rfl
  cases tokens with
  | nil => exact hmany []
  | cons lexeme rest =>
      obtain ⟨token, position⟩ := lexeme
      cases token with
      | rightParen => rfl
      | number | identifier | operator | leftParen | comma =>
          exact hmany (_ :: rest)

end Chains

section Levels

variable {inner inner' : Inner ν} (hinner : inner.Relocates f inner')

include hinner

theorem call_relocates (name : String) (position opening : Nat) :
    Relocates f (call inner name position opening)
      (call inner' name (f position) (f opening)) := by
  intro tokens
  unfold call
  cases Elementary.ofName? name with
  | none => rfl
  | some function =>
      apply relocated_bind
        (arguments_relocate (hinner.additive opening) opening tokens)
      intro found
      simp only [carryRest]
      rw [apply_ite (relocated f (carryRest f))]
      rfl

variable (final : Lexeme ν)

theorem parenthesised_relocate (opening : Nat) (tokens : List (Lexeme ν)) :
    (inner'.additive (f opening) (tokens.map (Lexeme.relocate f)) >>=
        fun found => closing (f opening) found.2 >>=
          fun rest => .ok (found.1, rest)) =
      relocated f (carryRest f) (inner.additive opening tokens >>=
        fun found => closing opening found.2 >>=
          fun rest => .ok (found.1, rest)) := by
  apply relocated_bind (hinner.additive opening tokens)
  intro found
  exact relocated_bind (closing_relocate _ _) fun _ => rfl

omit hinner in
theorem bareName_relocate (name : String) (position : Nat)
    (rest : List (Lexeme ν)) :
    (if (Elementary.ofName? name).isSome
      then .error (.here (f position) (.bareFunction name))
      else .ok (.identifier name, rest.map (Lexeme.relocate f)) :
        Except (ParseError ν) (Expr ν × List (Lexeme ν))) =
      relocated f (carryRest f) (if (Elementary.ofName? name).isSome
        then .error (.here position (.bareFunction name))
        else .ok (.identifier name, rest)) := by
  rw [apply_ite (relocated f (carryRest f))]
  rfl

theorem primary_relocates :
    Relocates f (primary (some final) inner)
      (primary (some (final.relocate f)) inner') := by
  intro tokens
  match tokens with
  | [] => exact congrArg Except.error (missingOperand_relocate final [])
  | ⟨.number value, position⟩ :: rest => rfl
  | ⟨.operator op, position⟩ :: rest => rfl
  | ⟨.rightParen, position⟩ :: rest => rfl
  | ⟨.comma, position⟩ :: rest => rfl
  | [⟨.identifier name, position⟩] => exact bareName_relocate name position []
  | ⟨.identifier name, position⟩ :: ⟨token, following⟩ :: rest =>
      cases token with
      | leftParen => exact call_relocates hinner name position following rest
      | number | identifier | operator | rightParen | comma =>
          exact bareName_relocate name position (_ :: rest)
  | [⟨.leftParen, opening⟩] => exact parenthesised_relocate hinner opening []
  | ⟨.leftParen, opening⟩ :: ⟨token, following⟩ :: rest =>
      cases token with
      | rightParen => rfl
      | number | identifier | operator | leftParen | comma =>
          exact parenthesised_relocate hinner opening (_ :: rest)

theorem power_relocates :
    Relocates f (power (some final) inner)
      (power (some (final.relocate f)) inner') := by
  intro tokens
  apply relocated_bind (primary_relocates hinner final tokens)
  rintro ⟨base, rest⟩
  match rest with
  | [] => rfl
  | ⟨.number value, position⟩ :: rest => rfl
  | ⟨.identifier name, position⟩ :: rest => rfl
  | ⟨.leftParen, position⟩ :: rest => rfl
  | ⟨.rightParen, position⟩ :: rest => rfl
  | ⟨.comma, position⟩ :: rest => rfl
  | ⟨.operator op, position⟩ :: rest =>
      cases op with
      | add | sub | mul | div => rfl
      | pow =>
          cases rest with
          | nil => exact relocated_bind (hinner.unary _ []) fun _ => rfl
          | cons next rest =>
              exact relocated_bind (hinner.unary _ (next :: rest)) fun _ => rfl

theorem unary_relocates :
    Relocates f (unary (some final) inner)
      (unary (some (final.relocate f)) inner') := by
  intro tokens
  match tokens with
  | [] => exact power_relocates hinner final []
  | ⟨.operator op, position⟩ :: rest =>
      cases op with
      | sub => exact relocated_bind (hinner.unary position rest) fun _ => rfl
      | add | mul | div | pow =>
          exact power_relocates hinner final (⟨.operator _, position⟩ :: rest)
  | ⟨.number _, position⟩ :: rest
  | ⟨.identifier _, position⟩ :: rest
  | ⟨.leftParen, position⟩ :: rest
  | ⟨.rightParen, position⟩ :: rest
  | ⟨.comma, position⟩ :: rest =>
      exact power_relocates hinner final (_ :: rest)

theorem additive_relocates :
    Relocates f (additive (some final) inner)
      (additive (some (final.relocate f)) inner') :=
  chain_relocates (chain_relocates (unary_relocates hinner final))

end Levels

/-- The induction is on the room. -/
theorem inner_relocates (f : Nat → Nat) (final : Lexeme ν) (room : Nat) :
    (inner (some final) room).Relocates f
      (inner (some (final.relocate f)) room) := by
  induction room with
  | zero => exact ⟨fun _ _ => rfl, fun _ _ => rfl⟩
  | succ room ih =>
      exact ⟨fun _ => unary_relocates ih final,
        fun _ => additive_relocates ih final⟩

end Parser

/-- Parsing carries positions along to the error. -/
theorem parseLexemes_relocate (f : Nat → Nat) (lexemes : List (Lexeme ν)) :
    parseLexemes (lexemes.map (Lexeme.relocate f)) =
      relocated f id (parseLexemes lexemes) := by
  cases hlast : lexemes.getLast? with
  | none =>
      obtain rfl := List.getLast?_eq_none_iff.1 hlast
      rfl
  | some final =>
      unfold parseLexemes
      rw [List.getLast?_map, hlast]
      apply relocated_bind (Parser.additive_relocates
        (Parser.inner_relocates f final maxNesting) final lexemes)
      rintro ⟨e, rest⟩
      cases rest <;> rfl

end SciCalc
