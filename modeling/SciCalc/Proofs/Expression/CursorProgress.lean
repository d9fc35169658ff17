import SciCalc.Proofs.Expression.CursorRuns
import SciCalc.Proofs.Expression.ParserCompleteness

/-!
# Procedures return further on

The procedure of a phrase follows the parser of the phrase. Loops end because
their operands and arguments take tokens; procedures that call themselves end
because the number of open levels is limited. A parser that succeeds leaves
fewer tokens than it was given, so a procedure that succeeds has moved the
cursor on.
-/

namespace SciCalc.Cursor

open Outcome

variable {ν α : Type}

/-- The procedure of a level of the grammar. -/
def phrase : Level → ℕ → CursorM ν (Expr ν)
  | .additive, calls => chain calls .additive
  | .multiplicative, calls => chain calls .multiplicative
  | .unary, calls => unary calls
  | .power, calls => power calls
  | .primary, calls => primary calls

/-- The level of the grammar that the operands of a chain are of. -/
def ChainLevel.operandLevel : ChainLevel → Level
  | .additive => .multiplicative
  | .multiplicative => .unary

theorem operand_succ (level : ChainLevel) (calls : ℕ) :
    (operand (calls + 1) level : CursorM ν (Expr ν)) =
      phrase level.operandLevel calls := by
  cases level <;> simp only [operand] <;> rfl

theorem operand_follows {tokens : List (Lexeme ν)} {depth : ℕ}
    (level : ChainLevel) {parser : Parser ν}
    (h : Mirrors tokens depth (phrase level.operandLevel) parser) :
    Mirrors tokens depth (fun calls => operand calls level) parser := by
  intro pos hpos
  apply Follows.of_succ
  simp only [operand_succ]
  exact h pos hpos

/-- One level deeper, the procedures follow these parsers, which take tokens. -/
structure MirrorsInner (tokens : List (Lexeme ν)) (depth : Nat)
    (inner : Parser.Inner ν) : Prop where
  unary : ∀ position,
    Mirrors tokens depth (fun calls => nested position (unary calls))
      (inner.unary position)
  additive : ∀ position,
    Mirrors tokens depth (fun calls => nested position (chain calls .additive))
      (inner.additive position)
  shrinks : ∀ position, Parser.Shrinks (inner.additive position)

section Phrases

variable {tokens left rest : List (Lexeme ν)} {pos depth : Nat}

/-! ## Tokens that are due -/

theorem missingOperand_follows (hpos : pos ≤ tokens.length)
    (hleft : tokens.drop pos = left) :
    Follows (fun _ => (missingOperand : CursorM ν α)) ⟨tokens, pos, depth⟩
      (.error (Parser.missingOperand tokens.getLast? left)) :=
  hleft ▸ (get_ends _).follows_bind (follows_throw hpos _)

theorem expectClosing_follows (hpos : pos ≤ tokens.length) (opening : Nat)
    (value : α) :
    Follows (fun _ => expectClosing opening >>= fun _ => pure value)
      ⟨tokens, pos, depth⟩
      (Parser.closing opening (tokens.drop pos) >>= fun rest =>
        .ok (value, rest)) := by
  simp only [expectClosing, bind_assoc]
  cases hleft : tokens.drop pos with
  | nil => exact (advance_ends_nil hleft).follows_bind (follows_throw hpos _)
  | cons next rest =>
      obtain ⟨hrest, hnext⟩ := drop_succ hleft
      refine (advance_ends hleft).follows_bind ?_
      obtain ⟨token, position⟩ := next
      cases token with
      | rightParen => exact hrest ▸ follows_pure hnext value
      | number _ | identifier _ | operator _ | leftParen | comma =>
          exact follows_throw hnext _

/-! ## Chains -/

section Chains

variable {level : ChainLevel} {parser : Parser ν}

/-- A token that is no operator of the chain ends it. -/
theorem chainFrom_stop (hpos : pos ≤ tokens.length)
    (hstop : ∀ next ∈ (tokens.drop pos).head?, level.op? next.token = none)
    (rounds : Nat) (e : Expr ν) :
    Follows (fun calls => chainFrom calls level e) ⟨tokens, pos, depth⟩
      (Parser.chainFrom level.op? parser rounds e (tokens.drop pos)) := by
  have hnone : ((tokens.drop pos).head?.bind fun next =>
      level.op? next.token) = none := Option.bind_eq_none_iff.2 hstop
  rw [Parser.chainFrom_stop hstop]
  apply Follows.of_succ
  simp only [chainFrom]
  refine (peek_ends rfl).follows_bind ?_
  rw [hnone]
  exact follows_pure hpos e

/-- The induction is on the rounds; each takes an operator and an operand, so
that the next one has fewer tokens in front of it. -/
theorem chainFrom_follows
    (hoperand : Mirrors tokens depth (fun calls => operand calls level) parser)
    (hshrinks : Parser.Shrinks parser) {rounds : Nat}
    (hpos : pos ≤ tokens.length)
    (hrounds : (tokens.drop pos).length ≤ rounds) (e : Expr ν) :
    Follows (fun calls => chainFrom calls level e) ⟨tokens, pos, depth⟩
      (Parser.chainFrom level.op? parser rounds e (tokens.drop pos)) := by
  induction rounds generalizing pos e with
  | zero =>
      have hnil := List.length_eq_zero_iff.1 (Nat.le_zero.1 hrounds)
      exact chainFrom_stop hpos (by simp [hnil]) 0 e
  | succ rounds ih =>
      cases hleft : tokens.drop pos with
      | nil => exact hleft ▸ chainFrom_stop hpos (by simp [hleft]) _ e
      | cons next rest =>
          cases hop : level.op? next.token with
          | none => exact hleft ▸ chainFrom_stop hpos (by simp [hleft, hop]) _ e
          | some op =>
              obtain ⟨hrest, hnext⟩ := drop_succ hleft
              apply Follows.of_succ
              simp only [chainFrom]
              refine (peek_ends hleft).follows_bind ?_
              rw [List.head?_cons, Option.bind_some, hop, Parser.chainFrom, hop,
                ← hrest]
              refine skip_ends.follows_bind ((hoperand _ hnext).bind ?_)
              intro right pos' hpos' hparse
              apply ih hpos'
              have hshorter : (tokens.drop pos').length <
                  (tokens.drop (pos + 1)).length := hshrinks _ _ _ hparse
              rw [hleft, List.length_cons] at hrounds
              rw [hrest] at hshorter
              omega

theorem chain_follows
    (hoperand : Mirrors tokens depth (fun calls => operand calls level) parser)
    (hshrinks : Parser.Shrinks parser) :
    Mirrors tokens depth (fun calls => chain calls level)
      (Parser.chain level.op? parser) := by
  intro pos hpos
  apply Follows.of_succ
  simp only [chain]
  apply (hoperand pos hpos).bind
  intro left pos' hpos' _
  exact chainFrom_follows hoperand hshrinks hpos' le_rfl left

end Chains

/-! ## Arguments -/

section Arguments

variable {argument : Parser ν} (rounds : Nat) (args : List (Expr ν))

/-- An argument behind a comma, and those that follow, behind others. -/
theorem argumentsFrom_comma (position : Nat) (rest : List (Lexeme ν)) :
    (Parser.argumentsFrom argument (rounds + 1) (⟨.comma, position⟩ :: rest)
        >>= fun more => .ok (args ++ more.1, more.2)) =
      argument rest >>= fun first =>
        Parser.argumentsFrom argument rounds first.2 >>= fun more =>
          .ok (args ++ [first.1] ++ more.1, more.2) := by
  simp [Parser.argumentsFrom]

/-- A token that is no comma ends the arguments. -/
theorem moreArguments_stop (hpos : pos ≤ tokens.length)
    (hother : ∀ position rest,
      tokens.drop pos = ⟨.comma, position⟩ :: rest → False) (opening : Nat) :
    Follows (fun calls => do
        if ← eat .comma then argumentsFrom calls opening args
        else return args)
      ⟨tokens, pos, depth⟩
      (Parser.argumentsFrom argument rounds (tokens.drop pos) >>= fun more =>
        .ok (args ++ more.1, more.2)) := by
  have hnone : Parser.argumentsFrom argument rounds (tokens.drop pos) =
      .ok ([], tokens.drop pos) := by
    unfold Parser.argumentsFrom
    split
    · next position rest hleft => exact (hother position rest hleft).elim
    · rfl
  rw [hnone, ok_bind, List.append_nil]
  exact (eat_ends_missed hother).follows_bind
    (follows_pure hpos args)

end Arguments

section Levels

variable {inner : Parser.Inner ν} (hinner : MirrorsInner tokens depth inner)

include hinner

/-- Behind some arguments. The induction is on the rounds, each of which takes a
comma and one more argument. -/
theorem moreArguments_follows (opening : Nat) {rounds : Nat}
    (hpos : pos ≤ tokens.length)
    (hrounds : (tokens.drop pos).length ≤ rounds) (args : List (Expr ν)) :
    Follows (fun calls => do
        if ← eat .comma then argumentsFrom calls opening args
        else return args)
      ⟨tokens, pos, depth⟩
      (Parser.argumentsFrom (inner.additive opening) rounds (tokens.drop pos)
        >>= fun more => .ok (args ++ more.1, more.2)) := by
  induction rounds generalizing pos args with
  | zero =>
      have hnil := List.length_eq_zero_iff.1 (Nat.le_zero.1 hrounds)
      exact moreArguments_stop 0 args hpos (by simp [hnil]) opening
  | succ rounds ih =>
      by_cases hcomma : ∃ position rest,
          tokens.drop pos = ⟨.comma, position⟩ :: rest
      · obtain ⟨position, rest, hleft⟩ := hcomma
        obtain ⟨hrest, hnext⟩ := drop_succ hleft
        rw [hleft, argumentsFrom_comma, ← hrest]
        refine (eat_ends_found hleft).follows_bind ?_
        simp only [if_true]
        apply Follows.of_succ
        simp only [argumentsFrom]
        apply (hinner.additive opening (pos + 1) hnext).bind
        intro first pos' hpos' hparse
        have hshorter : (tokens.drop pos').length <
            (tokens.drop (pos + 1)).length :=
          hinner.shrinks opening _ _ _ hparse
        rw [hleft, List.length_cons] at hrounds
        rw [hrest] at hshorter
        exact ih hpos' (by omega) (args ++ [first])
      · have hother : ∀ position rest,
            tokens.drop pos = ⟨.comma, position⟩ :: rest → False :=
          fun position rest hleft => hcomma ⟨position, rest, hleft⟩
        exact moreArguments_stop _ args hpos hother opening

theorem argumentsFrom_follows (opening : Nat) (args : List (Expr ν)) :
    Mirrors tokens depth (fun calls => argumentsFrom calls opening args)
      fun left =>
      inner.additive opening left >>= fun first =>
        Parser.argumentsFrom (inner.additive opening) first.2.length first.2
          >>= fun more => .ok (args ++ first.1 :: more.1, more.2) := by
  intro pos hpos
  apply Follows.of_succ
  simp only [argumentsFrom]
  apply (hinner.additive opening pos hpos).bind
  intro first pos' hpos' _
  have hmore := moreArguments_follows hinner opening hpos' le_rfl
    (args ++ [first])
  simpa using hmore

theorem arguments_follows (opening : Nat) :
    Mirrors tokens depth (fun calls => arguments calls opening)
      (Parser.arguments (inner.additive opening) opening) := by
  intro pos hpos
  apply Follows.of_succ
  simp only [arguments]
  unfold Parser.arguments
  split
  · next position rest hleft =>
    obtain ⟨hrest, hnext⟩ := drop_succ hleft
    exact (eat_ends_found hleft).follows_bind
      (hrest ▸ follows_pure hnext [])
  · next hother =>
    refine (eat_ends_missed hother).follows_bind ?_
    have hargs := argumentsFrom_follows hinner opening [] pos hpos
    have hclosed : Follows (fun calls => argumentsFrom calls opening [] >>=
        fun args => expectClosing opening >>= fun _ => pure args)
        ⟨tokens, pos, depth⟩
        (_ >>= fun args : List (Expr ν) × List (Lexeme ν) =>
          Parser.closing opening args.2 >>= fun rest => .ok (args.1, rest)) :=
      hargs.bind fun args pos' hpos' _ =>
        expectClosing_follows hpos' opening args
    simpa using hclosed

/-! ## Phrases -/

/-- A call is entered at its opening parenthesis. -/
theorem call_follows {opening : Nat}
    (hleft : tokens.drop pos = ⟨.leftParen, opening⟩ :: rest) (name : String)
    (position : Nat) :
    Follows (fun calls => call calls name position) ⟨tokens, pos, depth⟩
      (Parser.call inner name position opening rest) := by
  obtain ⟨hrest, hnext⟩ := drop_succ hleft
  apply Follows.of_succ
  simp only [call]
  unfold Parser.call
  cases Elementary.ofName? name with
  | none => exact follows_throw (Nat.le_of_succ_le hnext) _
  | some f =>
      refine (advance_ends hleft).follows_bind ?_
      have hargs := arguments_follows hinner opening (pos + 1) hnext
      rw [hrest] at hargs
      apply hargs.bind
      intro args pos' hpos' _
      dsimp only
      split
      · exact follows_pure hpos' _
      · exact follows_throw hpos' _

omit hinner in
theorem primary_name {last : Option (Lexeme ν)} {name : String} {position : Nat}
    (hother : ∀ opening, left.head? = some ⟨.leftParen, opening⟩ → False) :
    Parser.primary last inner (⟨.identifier name, position⟩ :: left) =
      if (Elementary.ofName? name).isSome then
        .error (.here position (.bareFunction name))
      else .ok (.identifier name, left) := by
  cases left with
  | nil => rfl
  | cons next rest =>
      obtain ⟨token, opening⟩ := next
      cases token with
      | leftParen => exact (hother opening rfl).elim
      | number _ | identifier _ | operator _ | rightParen | comma => rfl

omit hinner in
theorem primary_parenthesised {last : Option (Lexeme ν)} {opening : Nat}
    (hother : ∀ position, left.head? = some ⟨.rightParen, position⟩ → False) :
    Parser.primary last inner (⟨.leftParen, opening⟩ :: left) =
      inner.additive opening left >>= fun inside =>
        Parser.closing opening inside.2 >>= fun rest =>
          .ok (inside.1, rest) := by
  cases left with
  | nil => rfl
  | cons next rest =>
      obtain ⟨token, position⟩ := next
      cases token with
      | rightParen => exact (hother position rfl).elim
      | number _ | identifier _ | operator _ | leftParen | comma => rfl

theorem primary_follows :
    Mirrors tokens depth primary (Parser.primary tokens.getLast? inner) := by
  intro pos hpos
  apply Follows.of_succ
  simp only [primary]
  cases hleft : tokens.drop pos with
  | nil =>
      exact (peek_ends hleft).follows_bind (missingOperand_follows hpos hleft)
  | cons next rest =>
      obtain ⟨hrest, hnext⟩ := drop_succ hleft
      refine (peek_ends hleft).follows_bind ?_
      obtain ⟨token, position⟩ := next
      cases token with
      | number value =>
          exact skip_ends.follows_bind (hrest ▸ follows_pure hnext _)
      | identifier name =>
          refine skip_ends.follows_bind ((peek_ends hrest).follows_bind ?_)
          split
          · next opening hopening =>
            obtain ⟨after, rfl⟩ := List.head?_eq_some_iff.1 hopening
            exact call_follows hinner hrest name position
          · next hother =>
            rw [primary_name hother]
            split
            · exact follows_throw hnext _
            · exact hrest ▸ follows_pure hnext _
      | leftParen =>
          refine skip_ends.follows_bind ((peek_ends hrest).follows_bind ?_)
          split
          · next closer hcloser =>
            obtain ⟨after, rfl⟩ := List.head?_eq_some_iff.1 hcloser
            exact follows_throw hnext _
          · next hother =>
            rw [primary_parenthesised hother, ← hrest]
            apply (hinner.additive position (pos + 1) hnext).bind
            intro inside pos' hpos' _
            exact expectClosing_follows hpos' position inside
      | operator _ | rightParen | comma =>
          exact missingOperand_follows hpos hleft

theorem power_follows :
    Mirrors tokens depth power (Parser.power tokens.getLast? inner) := by
  intro pos hpos
  apply Follows.of_succ
  simp only [power]
  apply (primary_follows hinner pos hpos).bind
  intro base pos' hpos' _
  dsimp only
  split
  · next caret rest hleft =>
    obtain ⟨hrest, hnext⟩ := drop_succ hleft
    refine (eat_ends_found hleft).follows_bind ?_
    simp only [if_true]
    refine (peek_ends hrest).follows_bind ((get_ends _).follows_bind ?_)
    have hexponent := hinner.unary
      (((rest.head?.or tokens.getLast?).map Lexeme.position).getD 0)
      (pos' + 1) hnext
    rw [hrest] at hexponent
    apply hexponent.bind
    intro exponent pos'' hpos'' _
    exact follows_pure hpos'' _
  · next hother =>
    refine (eat_ends_missed hother).follows_bind ?_
    exact follows_pure hpos' base

theorem unary_follows :
    Mirrors tokens depth unary (Parser.unary tokens.getLast? inner) := by
  intro pos hpos
  apply Follows.of_succ
  simp only [unary]
  unfold Parser.unary
  split
  · next position rest hleft =>
    obtain ⟨hrest, hnext⟩ := drop_succ hleft
    refine (peek_ends hleft).follows_bind (skip_ends.follows_bind ?_)
    have hoperand := hinner.unary position (pos + 1) hnext
    rw [hrest] at hoperand
    apply hoperand.bind
    intro operand pos' hpos' _
    exact follows_pure hpos' _
  · next hother =>
    refine (peek_ends rfl).follows_bind ?_
    split
    · next position hminus =>
      obtain ⟨rest, hleft⟩ := List.head?_eq_some_iff.1 hminus
      exact (hother position rest hleft).elim
    · exact power_follows hinner pos hpos

/-- At every level of the grammar the procedure follows the parser, when those
that work one level deeper do. -/
theorem phrase_follows
    (hshrinks : ∀ level,
      Parser.Shrinks (Parser.ofLevel tokens.getLast? inner level))
    (level : Level) :
    Mirrors tokens depth (phrase level)
      (Parser.ofLevel tokens.getLast? inner level) := by
  have hunary := unary_follows hinner
  have hmultiplicative : Mirrors tokens depth (phrase .multiplicative)
      (Parser.multiplicative tokens.getLast? inner) :=
    chain_follows (operand_follows .multiplicative hunary) (hshrinks .unary)
  cases level with
  | additive =>
      exact chain_follows (operand_follows .additive hmultiplicative)
        (hshrinks .multiplicative)
  | multiplicative => exact hmultiplicative
  | unary => exact hunary
  | power => exact power_follows hinner
  | primary => exact primary_follows hinner

end Levels

end Phrases

/-! ## Nested phrases -/

/-- The induction is on the room for more levels. Without room both sides refuse
to go deeper. -/
theorem mirrorsInner (tokens : List (Lexeme ν)) {depth room : Nat}
    (hroom : depth + room = maxNesting) :
    MirrorsInner tokens depth (Parser.inner tokens.getLast? room) := by
  have hshrinks : ∀ position,
      Parser.Shrinks ((Parser.inner tokens.getLast? room).additive position) :=
    fun position =>
      ((Parser.inner_reads tokens.getLast? room).additive position).shrinks
  induction room generalizing depth with
  | zero =>
      exact ⟨fun _ _ hpos => nested_full hpos hroom.ge,
        fun _ _ hpos => nested_full hpos hroom.ge, hshrinks⟩
  | succ room ih =>
      have hinner : MirrorsInner tokens (depth + 1)
          (Parser.inner tokens.getLast? room) :=
        ih (by omega) fun position =>
          ((Parser.inner_reads tokens.getLast? room).additive position).shrinks
      have hphrase := phrase_follows hinner (Parser.ofLevel_shrinks room)
      have hdepth : depth < maxNesting := by omega
      exact ⟨fun _ pos hpos => nested_follows hdepth (hphrase .unary pos hpos),
        fun _ pos hpos => nested_follows hdepth (hphrase .additive pos hpos),
        hshrinks⟩

theorem phrase_mirrors (tokens : List (Lexeme ν)) {depth room : Nat}
    (hroom : depth + room = maxNesting) (level : Level) :
    Mirrors tokens depth (phrase level)
      (Parser.ofLevel tokens.getLast? (Parser.inner tokens.getLast? room)
        level) :=
  phrase_follows (mirrorsInner tokens hroom) (Parser.ofLevel_shrinks room) level

/-- A whole list of tokens is an additive phrase with nothing behind it. -/
theorem exists_whole (tokens : List (Lexeme ν)) :
    ∃ c', Ends whole (start tokens) (parseLexemes tokens) c' ∧
      c'.tokens = tokens ∧ c'.depth = 0 ∧ c'.pos ≤ tokens.length := by
  obtain ⟨outcome, pos, hends, hpos, hparse⟩ :=
    phrase_mirrors tokens (Nat.zero_add maxNesting) .additive 0
      (Nat.zero_le _)
  have hadditive : Parser.additive tokens.getLast?
      (Parser.inner tokens.getLast? maxNesting) tokens =
        outcome.map fun e => (e, tokens.drop pos) := hparse
  have hwhole : EndsAt whole (start tokens) (parseLexemes tokens) pos := by
    unfold parseLexemes
    dsimp only
    rw [hadditive]
    cases outcome with
    | error err => exact hends.bind_error
    | ok e =>
        refine hends.bind_ok ((peek_ends rfl).bind_ok ?_)
        cases hleft : tokens.drop pos with
        | nil => exact .of_run rfl le_rfl
        | cons found rest => exact .of_run rfl le_rfl
  exact ⟨_, hwhole.ends, rfl, rfl, hpos⟩

/-! ## Returning -/

/-- The procedure ends at this cursor, and however it ends, it leaves the cursor
among its tokens and not in front of where it was, with as many levels open as
before. -/
structure Returns (procedure : ℕ → CursorM ν α) (c : Cursor ν) : Prop where
  ends : ∃ outcome c', Ends procedure c outcome c'
  keeps : ∀ outcome c', Ends procedure c outcome c' →
    c'.tokens = c.tokens ∧ c'.depth = c.depth ∧
      c.pos ≤ c'.pos ∧ c'.pos ≤ c.tokens.length

/-- Where the procedure succeeds, it has taken tokens. -/
def Progresses (procedure : ℕ → CursorM ν α) (c : Cursor ν) : Prop :=
  ∀ value c', Ends procedure c (.ok value) c' → c.pos < c'.pos

section Returning

variable {procedure : ℕ → CursorM ν α} {c : Cursor ν}
variable {result : Except (ParseError ν) (α × List (Lexeme ν))}
variable (hgrows : ∀ calls,
  Approximates (procedure calls) (procedure (calls + 1)))

include hgrows

theorem Follows.returns (h : Follows procedure c result) :
    Returns procedure c := by
  obtain ⟨outcome, pos, hends, hpos, -⟩ := h
  refine ⟨⟨outcome, { c with pos }, hends.ends⟩, ?_⟩
  intro outcome' c' hends'
  obtain ⟨-, rfl⟩ := hends'.unique hgrows hends.ends
  exact ⟨rfl, rfl, hends.forward, hpos⟩

/-- A parser that leaves fewer tokens moves the cursor on. -/
theorem Follows.progresses (h : Follows procedure c result)
    (hshorter : ∀ value rest, result = .ok (value, rest) →
      rest.length < (c.tokens.drop c.pos).length) :
    Progresses procedure c := by
  obtain ⟨outcome, pos, hends, -, rfl⟩ := h
  intro value c' hsuccess
  obtain ⟨rfl, rfl⟩ := hends.ends.unique hgrows hsuccess
  have hlength := hshorter value (c.tokens.drop pos) rfl
  rw [List.length_drop, List.length_drop] at hlength
  dsimp only
  omega

end Returning

theorem phrase_grows (level : Level) (calls : ℕ) :
    Approximates (phrase level calls : CursorM ν (Expr ν))
      (phrase level (calls + 1)) := by
  have hgrows : Grows ν calls := grows calls
  cases level with
  | additive => exact hgrows.chain .additive
  | multiplicative => exact hgrows.chain .multiplicative
  | unary => exact hgrows.unary
  | power => exact hgrows.power
  | primary => exact hgrows.primary

section Procedures

variable {c : Cursor ν} (hpos : c.pos ≤ c.tokens.length)
variable {room : ℕ} (hroom : c.depth + room = maxNesting)

include hpos hroom

theorem phrase_returns (level : Level) :
    Returns (phrase level) c ∧ Progresses (phrase level) c := by
  have hfollows := phrase_mirrors c.tokens hroom level c.pos hpos
  exact ⟨hfollows.returns (phrase_grows level),
    hfollows.progresses (phrase_grows level) fun e rest =>
      Parser.ofLevel_shrinks room level _ e rest⟩

omit hpos in
/-- A call takes its parenthesis at least. -/
theorem call_returns {opening : ℕ}
    (hopening : c.tokens[c.pos]? = some ⟨.leftParen, opening⟩) (name : String)
    (position : ℕ) :
    Returns (call · name position) c ∧ Progresses (call · name position) c := by
  obtain ⟨rest, hleft⟩ := List.head?_eq_some_iff.1
    (List.head?_drop.trans hopening)
  have hfollows := call_follows (mirrorsInner c.tokens hroom) hleft name
    position
  have hgrows (calls : ℕ) : Approximates
      (call calls name position : CursorM ν (Expr ν))
      (call (calls + 1) name position) := (grows calls).call name position
  refine ⟨hfollows.returns hgrows,
    hfollows.progresses hgrows fun e rest' hcall => ?_⟩
  obtain ⟨taken, -, rfl, -, -⟩ :=
    Parser.call_reads (Parser.inner_reads c.tokens.getLast? room) hcall
  rw [hleft, List.length_cons, List.length_append]
  omega

theorem chainFrom_returns (level : ChainLevel) (e : Expr ν) :
    Returns (chainFrom · level e) c := by
  have hoperand := operand_follows level
    (phrase_mirrors c.tokens hroom level.operandLevel)
  have hfollows := chainFrom_follows hoperand
    (Parser.ofLevel_shrinks room level.operandLevel) hpos le_rfl e
  exact hfollows.returns fun calls => (grows calls).chainFrom level e

theorem argumentsFrom_returns (opening : ℕ) (args : List (Expr ν)) :
    Returns (argumentsFrom · opening args) c := by
  have hfollows := argumentsFrom_follows (mirrorsInner c.tokens hroom) opening
    args c.pos hpos
  exact hfollows.returns fun calls => (grows calls).argumentsFrom opening args

end Procedures

/-- Every procedure ends, in front of every token and with any number of open
levels that is allowed, and so do the loops that continue chains and arguments.
The number of open levels is as before on success and on failure alike, the
cursor moves among the tokens and never back, and a phrase that is found has
taken one token at least; a call is entered at its opening parenthesis. So every
list of tokens is read to an end, which is the tree or the error of the list. -/
theorem procedures_return_further_on :
    (∀ c : Cursor ν, c.pos ≤ c.tokens.length → c.depth ≤ maxNesting →
      (∀ level, Returns (phrase level) c ∧ Progresses (phrase level) c) ∧
      (∀ name position opening,
        c.tokens[c.pos]? = some ⟨.leftParen, opening⟩ →
        Returns (call · name position) c ∧
          Progresses (call · name position) c) ∧
      (∀ level e, Returns (chainFrom · level e) c) ∧
      ∀ opening args, Returns (argumentsFrom · opening args) c) ∧
    ∀ tokens : List (Lexeme ν), ∃ c',
      Ends whole (start tokens) (parseLexemes tokens) c' ∧
        c'.tokens = tokens ∧ c'.depth = 0 ∧ c'.pos ≤ tokens.length := by
  refine ⟨?_, exists_whole⟩
  intro c hpos hdepth
  obtain ⟨room, hroom⟩ := Nat.exists_eq_add_of_le hdepth
  refine ⟨phrase_returns hpos hroom.symm, ?_, ?_, ?_⟩
  · intro name position opening hopening
    exact call_returns hroom.symm hopening name position
  · intro level e
    exact chainFrom_returns hpos hroom.symm level e
  · intro opening args
    exact argumentsFrom_returns hpos hroom.symm opening args

/-- The cursor stands in front of the call in `2^sin(x)` with one level left,
and in front of the parenthesis of the call with none. -/
theorem procedures_return_in_front_of_call :
    let tokens : List (Lexeme Float) :=
      [⟨.number 2, 0⟩, ⟨.operator .pow, 1⟩, ⟨.identifier "sin", 2⟩,
        ⟨.leftParen, 5⟩, ⟨.identifier "x", 6⟩, ⟨.rightParen, 7⟩]
    let outer : Cursor Float := ⟨tokens, 2, 199⟩
    let inner : Cursor Float := ⟨tokens, 3, 200⟩
    (outer.pos ≤ outer.tokens.length ∧ outer.depth ≤ maxNesting ∧
      Returns (phrase .unary) outer ∧ Progresses (phrase .unary) outer) ∧
    (inner.pos ≤ inner.tokens.length ∧ inner.depth ≤ maxNesting ∧
      inner.tokens[inner.pos]? = some ⟨.leftParen, 5⟩ ∧
      Returns (call · "sin" 2) inner ∧ Progresses (call · "sin" 2) inner) ∧
    ∃ c', Ends whole (start tokens)
      (.ok (.binary .pow (.number 2) (.call "sin" [.identifier "x"]))) c' ∧
        c'.depth = 0 := by
  intro tokens outer inner
  obtain ⟨hreturns, hwhole⟩ := procedures_return_further_on (ν := Float)
  obtain ⟨c', hrun, -, hdepth, -⟩ := hwhole tokens
  have hparse : parseLexemes tokens =
      .ok (.binary .pow (.number 2) (.call "sin" [.identifier "x"])) := by cbv
  have houter := (hreturns outer (by decide) (by decide)).1 .unary
  have hinner := (hreturns inner (by decide) (by decide)).2.1 "sin" 2 5 rfl
  exact ⟨⟨by decide, by decide, houter⟩, ⟨by decide, by decide, rfl, hinner⟩,
    c', hparse ▸ hrun, hdepth⟩

end SciCalc.Cursor
