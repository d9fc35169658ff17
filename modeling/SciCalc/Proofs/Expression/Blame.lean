import SciCalc.Proofs.Expression.Cutting
import SciCalc.Proofs.Expression.ParserSoundness

/-!
# What the parser blames

The star of an implicit product stands behind a token that ends an operand.
The chain of factors takes it there, so no other part of the parser ever meets
it, and every error of the parser is about a token as typed.
-/

namespace SciCalc

open SciCalc.Outcome SciCalc.Parser

variable {ν : Type}

/-! ## Tokens with stars between them -/

/-- The tokens are typed ones, with stars that stand behind a token that can
end an operand and in front of another token. -/
inductive Starred (typed : List (Lexeme ν)) : List (Lexeme ν) → Prop
  | nil : Starred typed []
  | cons {l : Lexeme ν} {tokens : List (Lexeme ν)} (hl : l ∈ typed)
      (h : Starred typed tokens) : Starred typed (l :: tokens)
  | star {l next : Lexeme ν} {tokens : List (Lexeme ν)} {position : Nat}
      (hl : l ∈ typed) (hcloses : l.token.closes = true)
      (h : Starred typed (next :: tokens)) :
      Starred typed (l :: ⟨.operator .mul, position⟩ :: next :: tokens)

/-- Behind the end of an operand a star may come first. -/
def Behind (typed tokens : List (Lexeme ν)) : Prop :=
  Starred typed tokens ∨ ∃ position next rest,
    tokens = ⟨.operator .mul, position⟩ :: next :: rest ∧
      Starred typed (next :: rest)

section Tokens

variable {typed tokens rest : List (Lexeme ν)} {l : Lexeme ν}

theorem Starred.mem (h : Starred typed (l :: rest)) : l ∈ typed := by
  cases h with
  | cons hl h => exact hl
  | star hl hcloses h => exact hl

theorem Starred.behind (h : Starred typed (l :: rest)) : Behind typed rest := by
  cases h with
  | cons hl h => exact .inl h
  | star hl hcloses h => exact .inr ⟨_, _, _, rfl, h⟩

/-- Only behind the end of an operand is there a star. -/
theorem Starred.tail (h : Starred typed (l :: rest))
    (hopen : l.token.closes = false) : Starred typed rest := by
  cases h with
  | cons hl h => exact h
  | star hl hcloses h =>
      rw [hopen] at hcloses
      cases hcloses

theorem Starred.getLast?_mem (h : Starred typed tokens) :
    ∀ final ∈ tokens.getLast?, final ∈ typed := by
  induction h with
  | nil => simp
  | @cons l tokens hl h ih =>
      intro final hfinal
      rw [List.getLast?_cons] at hfinal
      cases htokens : tokens.getLast? with
      | none =>
          rw [htokens] at hfinal
          cases hfinal
          exact hl
      | some other =>
          rw [htokens] at hfinal
          cases hfinal
          exact ih other htokens
  | star hl hcloses h ih => simpa using ih

theorem Behind.starred (h : Behind typed tokens)
    (hhead : ∀ next ∈ tokens.head?, multiplicativeOp? next.token = none) :
    Starred typed tokens := by
  rcases h with h | ⟨position, next, rest, rfl, -⟩
  · exact h
  · cases hhead _ rfl

theorem Parser.eq_of_multiplicativeOp? {token : Token ν} {op : BinaryOp}
    (h : multiplicativeOp? token = some op) : token = .operator op := by
  unfold multiplicativeOp? at h
  split at h <;> cases h <;> rfl

theorem Parser.eq_of_additiveOp? {token : Token ν} {op : BinaryOp}
    (h : additiveOp? token = some op) : token = .operator op := by
  unfold additiveOp? at h
  split at h <;> cases h <;> rfl

/-- The chain of factors takes stars of either kind. -/
theorem Behind.tail_of_multiplicativeOp? {next : Lexeme ν} {op : BinaryOp}
    (h : Behind typed (next :: rest))
    (hop : multiplicativeOp? next.token = some op) : Starred typed rest := by
  rcases h with h | ⟨position, following, others, heq, h⟩
  · apply h.tail
    rw [eq_of_multiplicativeOp? hop]
    rfl
  · cases heq
    exact h

end Tokens

/-! ## Errors about typed tokens -/

/-- The error points at a typed token, and at the one it is about if it is
about one. -/
def Blamed (typed : List (Lexeme ν)) (err : ParseError ν) : Prop :=
  ∃ l ∈ typed, err.position = some l.position ∧
    ∀ token ∈ err.reason.subject?, token = l.token

theorem blamed_of_subject {typed : List (Lexeme ν)} {l : Lexeme ν}
    {reason : ParseReason ν} (hl : l ∈ typed)
    (hreason : reason.subject? = some l.token) :
    Blamed typed (.here l.position reason) := by
  refine ⟨l, hl, rfl, ?_⟩
  intro token htoken
  exact Option.some.inj (htoken.symm.trans hreason)

theorem blamed_of_no_subject {typed : List (Lexeme ν)} {l : Lexeme ν}
    {reason : ParseReason ν} (hl : l ∈ typed) (hreason : reason.subject? = none) :
    Blamed typed (.here l.position reason) := by
  refine ⟨l, hl, rfl, ?_⟩
  intro token htoken
  cases htoken.symm.trans hreason

/-- An error is about a typed token, and a result is a good one. -/
def Traced (typed : List (Lexeme ν)) {α : Type} (good : α → Prop) :
    Except (ParseError ν) α → Prop
  | .ok value => good value
  | .error err => Blamed typed err

theorem Traced.bind {typed : List (Lexeme ν)} {α β : Type} {good : α → Prop}
    {good' : β → Prop} {first : Except (ParseError ν) α}
    {next : α → Except (ParseError ν) β} (hfirst : Traced typed good first)
    (hnext : ∀ value, good value → Traced typed good' (next value)) :
    Traced typed good' (first >>= next) := by
  cases first with
  | error err => exact hfirst
  | ok value => exact hnext value hfirst

namespace Parser

/-- In front of typed tokens the parser leaves good ones or blames a typed
one. -/
def Traces (typed : List (Lexeme ν)) (good : List (Lexeme ν) → Prop)
    (parser : Parser ν) : Prop :=
  ∀ tokens, Starred typed tokens →
    Traced typed (fun outcome => good outcome.2) (parser tokens)

/-- Both parsers of the next level do, when they are given the position of a
typed token. -/
structure Inner.Traces (typed : List (Lexeme ν)) (inner : Inner ν) :
    Prop where
  unary : ∀ l ∈ typed,
    Parser.Traces typed (Behind typed) (inner.unary l.position)
  additive : ∀ l ∈ typed,
    Parser.Traces typed (Starred typed) (inner.additive l.position)

variable {typed : List (Lexeme ν)}

theorem blamed_missingOperand {final : Lexeme ν} (hfinal : final ∈ typed)
    {tokens : List (Lexeme ν)} (h : Starred typed tokens) :
    Blamed typed (missingOperand (some final) tokens) := by
  cases tokens with
  | cons found rest => exact blamed_of_subject h.mem rfl
  | nil =>
      unfold missingOperand
      dsimp only
      split
      · exact blamed_of_subject hfinal rfl
      · exact blamed_of_no_subject hfinal rfl

theorem closing_traced {opening : Lexeme ν} (hopening : opening ∈ typed)
    {tokens : List (Lexeme ν)} (h : Starred typed tokens) :
    Traced typed (Behind typed) (closing opening.position tokens) := by
  unfold closing
  split
  · exact h.behind
  · exact blamed_of_subject h.mem rfl
  · exact blamed_of_no_subject hopening rfl

section Arguments

variable {argument : Parser ν} (hargument : Traces typed (Starred typed) argument)

include hargument

theorem argumentsFrom_traced (rounds : Nat) {tokens : List (Lexeme ν)}
    (h : Starred typed tokens) :
    Traced typed (fun outcome => Starred typed outcome.2)
      (argumentsFrom argument rounds tokens) := by
  induction rounds generalizing tokens with
  | zero => exact h
  | succ rounds ih =>
      unfold argumentsFrom
      split
      · next rounds' position rest hrounds =>
        cases hrounds
        apply (hargument rest (h.tail rfl)).bind
        rintro ⟨first, after⟩ hfirst
        apply (ih hfirst).bind
        intro more hmore
        exact hmore
      · exact h

theorem arguments_traced {opening : Lexeme ν} (hopening : opening ∈ typed)
    {tokens : List (Lexeme ν)} (h : Starred typed tokens) :
    Traced typed (fun outcome => Behind typed outcome.2)
      (arguments argument opening.position tokens) := by
  unfold arguments
  split
  · exact h.behind
  · apply (hargument _ h).bind
    intro first hfirst
    apply (argumentsFrom_traced hargument _ hfirst).bind
    intro more hmore
    apply (closing_traced hopening hmore).bind
    intro rest hrest
    exact hrest

end Arguments

section Levels

variable {final : Lexeme ν} (hfinal : final ∈ typed)
variable {inner : Inner ν} (hinner : inner.Traces typed)

include hinner

theorem call_traced {name : String} {position : Nat} {opening : Lexeme ν}
    (hname : ⟨.identifier name, position⟩ ∈ typed) (hopening : opening ∈ typed)
    {tokens : List (Lexeme ν)} (h : Starred typed tokens) :
    Traced typed (fun outcome => Behind typed outcome.2)
      (call inner name position opening.position tokens) := by
  unfold call
  split
  · exact blamed_of_subject hname rfl
  · apply (arguments_traced (hinner.additive opening hopening) hopening h).bind
    intro outcome hrest
    dsimp only
    split
    · exact hrest
    · exact blamed_of_subject hname rfl

include hfinal

theorem primary_traces :
    Traces typed (Behind typed) (primary (some final) inner) := by
  intro tokens h
  unfold primary
  split
  · exact h.behind
  · next name position opening rest =>
    -- what follows the name is a parenthesis, so it is no star
    rcases h.behind with hopening | ⟨_, _, _, heq, -⟩
    · exact call_traced hinner h.mem hopening.mem (hopening.tail rfl)
    · cases heq
  · split
    · exact blamed_of_subject h.mem rfl
    · exact h.behind
  · exact blamed_of_subject (h.tail rfl).mem rfl
  · next opening rest _ =>
    apply (hinner.additive _ h.mem _ (h.tail rfl)).bind
    intro inside hinside
    apply (closing_traced h.mem hinside).bind
    intro closed hclosed
    exact hclosed
  · exact blamed_missingOperand hfinal h

theorem power_traces :
    Traces typed (Behind typed) (power (some final) inner) := by
  intro tokens h
  apply (primary_traces hfinal hinner tokens h).bind
  rintro ⟨base, after⟩ hafter
  dsimp only
  split
  · next position rest =>
    -- the caret was typed, and it ends no operand
    have hcaret : Starred typed (⟨.operator .pow, position⟩ :: rest) := by
      apply hafter.starred
      rintro next ⟨⟩
      rfl
    have hrest : Starred typed rest := hcaret.tail rfl
    have hblame : ∃ l ∈ typed, rest.head?.or (some final) = some l := by
      cases rest with
      | nil => exact ⟨final, hfinal, rfl⟩
      | cons next others => exact ⟨next, hrest.mem, rfl⟩
    obtain ⟨l, hl, hblamed⟩ := hblame
    rw [hblamed]
    apply (hinner.unary l hl rest hrest).bind
    intro exponent hexponent
    exact hexponent
  · exact hafter

theorem unary_traces :
    Traces typed (Behind typed) (unary (some final) inner) := by
  intro tokens h
  unfold unary
  split
  · apply (hinner.unary _ h.mem _ (h.tail rfl)).bind
    intro operand hoperand
    exact hoperand
  · exact power_traces hfinal hinner tokens h

end Levels

section Chains

variable {op? : Token ν → Option BinaryOp} {operand : Parser ν}
variable {between : List (Lexeme ν) → Prop}

/-- The induction is on the rounds. Between the operands the tokens are good
ones, an operator is followed by typed ones, and the chain ends in front of a
token that is no operator of it. -/
theorem chainFrom_traced
    (htake : ∀ ⦃next rest op⦄, between (next :: rest) →
      op? next.token = some op → Starred typed rest)
    (hend : ∀ ⦃tokens⦄, between tokens →
      (∀ next ∈ tokens.head?, op? next.token = none) → Starred typed tokens)
    (hoperand : Traces typed between operand) (hshrinks : Shrinks operand)
    {rounds : Nat} {left : Expr ν} {tokens : List (Lexeme ν)}
    (hrounds : tokens.length ≤ rounds) (h : between tokens) :
    Traced typed (fun outcome => Starred typed outcome.2)
      (chainFrom op? operand rounds left tokens) := by
  induction rounds generalizing left tokens with
  | zero =>
      obtain rfl := List.eq_nil_of_length_eq_zero (Nat.le_zero.1 hrounds)
      exact hend h (by rintro next ⟨⟩)
  | succ rounds ih =>
      match tokens with
      | [] => exact hend h (by rintro next ⟨⟩)
      | next :: rest =>
          unfold chainFrom
          cases hop : op? next.token with
          | none =>
              apply hend h
              rintro other ⟨⟩
              exact hop
          | some op =>
              have hright := hoperand rest (htake h hop)
              dsimp only
              cases hparse : operand rest with
              | error err =>
                  rw [hparse] at hright
                  exact hright
              | ok outcome =>
                  rw [hparse] at hright
                  have hshorter := hshrinks rest _ _ hparse
                  rw [List.length_cons] at hrounds
                  exact ih (by omega) hright

theorem chain_traces
    (htake : ∀ ⦃next rest op⦄, between (next :: rest) →
      op? next.token = some op → Starred typed rest)
    (hend : ∀ ⦃tokens⦄, between tokens →
      (∀ next ∈ tokens.head?, op? next.token = none) → Starred typed tokens)
    (hoperand : Traces typed between operand) (hshrinks : Shrinks operand) :
    Traces typed (Starred typed) (chain op? operand) := by
  intro tokens h
  apply (hoperand tokens h).bind
  intro outcome hrest
  exact chainFrom_traced htake hend hoperand hshrinks le_rfl hrest

end Chains

section Levels

variable {final : Lexeme ν} (hfinal : final ∈ typed)
variable {inner : Inner ν} (hinner : inner.Traces typed)
variable {bound : Nat} (hreads : inner.Reads bound)

include hfinal hinner hreads

theorem multiplicative_traces :
    Traces typed (Starred typed) (multiplicative (some final) inner) :=
  chain_traces (fun _ _ _ h hop => h.tail_of_multiplicativeOp? hop)
    (fun _ h hhead => h.starred hhead) (unary_traces hfinal hinner)
    (unary_reads (some final) hreads).shrinks

theorem additive_traces :
    Traces typed (Starred typed) (additive (some final) inner) := by
  apply chain_traces _ (fun _ h _ => h)
    (multiplicative_traces hfinal hinner hreads)
    (multiplicative_reads (some final) hreads).shrinks
  intro next rest op h hop
  apply h.tail
  rw [eq_of_additiveOp? hop]
  rfl

end Levels

/-- The induction is on the room. -/
theorem inner_traces {final : Lexeme ν} (hfinal : final ∈ typed) (room : Nat) :
    (inner (some final) room).Traces typed := by
  induction room with
  | zero =>
      constructor
      · intro l hl tokens h
        exact blamed_of_no_subject hl rfl
      · intro l hl tokens h
        exact blamed_of_no_subject hl rfl
  | succ room ih =>
      constructor
      · intro l hl
        exact unary_traces hfinal ih
      · intro l hl
        exact additive_traces hfinal ih (inner_reads (some final) room)

end Parser

/-- Whatever stars there are, an error is about a typed token. -/
theorem blamed_of_parseLexemes {typed tokens : List (Lexeme ν)}
    (h : Starred typed tokens) (hne : tokens ≠ []) {err : ParseError ν}
    (herr : parseLexemes tokens = .error err) : Blamed typed err := by
  have hlast := List.getLast?_eq_getLast_of_ne_nil hne
  have hfinal := h.getLast?_mem _ hlast
  have htraced : Traced typed (fun _ => True) (parseLexemes tokens) := by
    unfold parseLexemes
    rw [hlast]
    apply (additive_traces hfinal (inner_traces hfinal maxNesting)
      (inner_reads _ maxNesting) tokens h).bind
    rintro ⟨e, rest⟩ hrest
    cases rest with
    | nil => trivial
    | cons found rest => exact blamed_of_subject hrest.mem rfl
  rw [herr] at htraced
  exact htraced

end SciCalc
