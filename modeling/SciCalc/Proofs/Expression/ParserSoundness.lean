import SciCalc.Proofs.Expression.Grammar
import SciCalc.Proofs.Outcome

/-!
# Soundness of the parser

What a parser takes from the front of its tokens derives the tree it returns,
and the derivation keeps to the levels there was room for. Since a phrase is
never empty, every parser that succeeds leaves fewer tokens than it was given.
-/

namespace SciCalc.Parser

open Grammar Outcome

variable {ν : Type}

/-- The tokens that the parser takes derive the tree it returns, nested less
deep than `bound`. -/
def Reads (bound : Nat) (level : Level) (parser : Parser ν) : Prop :=
  ∀ tokens e rest, parser tokens = .ok (e, rest) →
    ∃ taken depth, tokens = taken ++ rest ∧
      Derives level (taken.map Lexeme.token) e depth ∧ depth < bound

/-- Both parsers of the next level read their phrases. -/
structure Inner.Reads (bound : Nat) (inner : Inner ν) : Prop where
  unary : ∀ position, Parser.Reads bound .unary (inner.unary position)
  additive : ∀ position, Parser.Reads bound .additive (inner.additive position)

/-- A parser that succeeds leaves fewer tokens. -/
def Shrinks (parser : Parser ν) : Prop :=
  ∀ tokens e rest, parser tokens = .ok (e, rest) → rest.length < tokens.length

theorem Reads.shrinks {bound : Nat} {level : Level} {parser : Parser ν}
    (h : Reads bound level parser) : Shrinks parser := by
  intro tokens e rest hparse
  obtain ⟨taken, depth, rfl, hderives, -⟩ := h tokens e rest hparse
  have htaken : taken ≠ [] := by
    rintro rfl
    exact hderives.ne_nil rfl
  have hpos := List.length_pos_of_ne_nil htaken
  rw [List.length_append]
  omega

theorem closing_eq_ok {opening : Nat} {tokens rest : List (Lexeme ν)}
    (h : closing opening tokens = .ok rest) :
    ∃ position, tokens = ⟨.rightParen, position⟩ :: rest := by
  unfold closing at h
  split at h
  · next position rest' =>
    cases h
    exact ⟨position, rfl⟩
  · cases h
  · cases h

/-- Only a comma adds to a list of arguments. -/
theorem argumentsFrom_eq_nil {argument : Parser ν} {rounds : Nat}
    {tokens rest : List (Lexeme ν)}
    (h : argumentsFrom argument rounds tokens = .ok ([], rest)) :
    tokens = rest := by
  unfold argumentsFrom at h
  split at h
  · obtain ⟨⟨first, after⟩, -, h⟩ := bind_eq_ok_iff.1 h
    obtain ⟨⟨more, final⟩, -, h⟩ := bind_eq_ok_iff.1 h
    cases h
  · cases h
    rfl

/-- A list of one argument is a phrase and the parenthesis behind it. -/
theorem arguments_eq_singleton {argument : Parser ν} {opening : Nat}
    {tokens rest : List (Lexeme ν)} {e : Expr ν}
    (h : arguments argument opening tokens = .ok ([e], rest)) :
    ∃ position, argument tokens = .ok (e, ⟨.rightParen, position⟩ :: rest) := by
  unfold arguments at h
  split at h
  · cases h
  · obtain ⟨⟨first, after⟩, hfirst, h⟩ := bind_eq_ok_iff.1 h
    obtain ⟨⟨more, final⟩, hmore, h⟩ := bind_eq_ok_iff.1 h
    obtain ⟨closed, hclosed, h⟩ := bind_eq_ok_iff.1 h
    cases h
    obtain rfl := argumentsFrom_eq_nil hmore
    obtain ⟨position, rfl⟩ := closing_eq_ok hclosed
    exact ⟨position, hfirst⟩

section Levels

variable {bound : Nat} {inner : Inner ν} (last : Option (Lexeme ν))

theorem call_reads (hinner : inner.Reads bound) {name : String}
    {position opening : Nat} {tokens rest : List (Lexeme ν)} {e : Expr ν}
    (h : call inner name position opening tokens = .ok (e, rest)) :
    ∃ taken depth, tokens = taken ++ rest ∧
      Derives .primary (.identifier name :: .leftParen :: taken.map Lexeme.token)
        e depth ∧ depth < bound + 1 := by
  unfold call at h
  split at h
  · cases h
  · next f hname =>
    obtain ⟨⟨args, after⟩, hargs, h⟩ := bind_eq_ok_iff.1 h
    dsimp only at h
    split at h
    · next hcount =>
      cases h
      obtain ⟨argument, rfl⟩ := List.length_eq_one_iff.1 hcount
      obtain ⟨closer, hargument⟩ := arguments_eq_singleton hargs
      obtain ⟨taken, depth, rfl, hderives, hdepth⟩ :=
        hinner.additive opening _ _ _ hargument
      refine ⟨taken ++ [⟨.rightParen, closer⟩], depth + 1, by simp, ?_,
        by omega⟩
      rw [List.map_append]
      exact .call hname hderives
    · cases h

theorem primary_reads (hinner : inner.Reads bound) :
    Reads (bound + 1) .primary (primary last inner) := by
  intro tokens e rest h
  unfold primary at h
  split at h
  · next value position after =>
    cases h
    exact ⟨[⟨.number value, position⟩], 0, rfl, .number value, by omega⟩
  · next name position opening after =>
    obtain ⟨taken, depth, rfl, hderives, hdepth⟩ := call_reads hinner h
    exact ⟨⟨.identifier name, position⟩ :: ⟨.leftParen, opening⟩ :: taken,
      depth, rfl, hderives, hdepth⟩
  · next name position after _ =>
    split at h
    · cases h
    · next hname =>
      cases h
      exact ⟨[⟨.identifier name, position⟩], 0, rfl,
        .identifier (by simpa using hname), by omega⟩
  · cases h
  · next opening after _ =>
    obtain ⟨⟨inside, after'⟩, hinside, h⟩ := bind_eq_ok_iff.1 h
    obtain ⟨closed, hclosed, h⟩ := bind_eq_ok_iff.1 h
    cases h
    obtain ⟨closer, rfl⟩ := closing_eq_ok hclosed
    obtain ⟨taken, depth, rfl, hderives, hdepth⟩ :=
      hinner.additive opening _ _ _ hinside
    refine ⟨⟨.leftParen, opening⟩ :: (taken ++ [⟨.rightParen, closer⟩]),
      depth + 1, by simp, ?_, by omega⟩
    rw [List.map_cons, List.map_append]
    exact .parenthesised hderives
  · cases h

theorem power_reads (hinner : inner.Reads bound) :
    Reads (bound + 1) .power (power last inner) := by
  intro tokens e rest h
  obtain ⟨⟨base, after⟩, hbase, hafter⟩ := bind_eq_ok_iff.1 h
  obtain ⟨taken, depth, rfl, hderives, hdepth⟩ :=
    primary_reads last hinner _ _ _ hbase
  dsimp only at hafter
  split at hafter
  · next caret after' =>
    obtain ⟨⟨exponent, final⟩, hexponent, hfinal⟩ := bind_eq_ok_iff.1 hafter
    cases hfinal
    obtain ⟨taken', depth', rfl, hderives', hdepth'⟩ :=
      hinner.unary _ _ _ _ hexponent
    refine ⟨taken ++ ⟨.operator .pow, caret⟩ :: taken', max depth (depth' + 1),
      by simp, ?_, by omega⟩
    rw [List.map_append, List.map_cons]
    exact .power hderives hderives'
  · cases hafter
    exact ⟨taken, depth, rfl, .ofPrimary hderives, hdepth⟩

theorem unary_reads (hinner : inner.Reads bound) :
    Reads (bound + 1) .unary (unary last inner) := by
  intro tokens e rest h
  unfold unary at h
  split at h
  · next minus after =>
    obtain ⟨⟨operand, final⟩, hoperand, h⟩ := bind_eq_ok_iff.1 h
    cases h
    obtain ⟨taken, depth, rfl, hderives, hdepth⟩ :=
      hinner.unary minus _ _ _ hoperand
    exact ⟨⟨.operator .sub, minus⟩ :: taken, depth + 1, rfl, .neg hderives,
      by omega⟩
  · obtain ⟨taken, depth, rfl, hderives, hdepth⟩ :=
      power_reads last hinner _ _ _ h
    exact ⟨taken, depth, rfl, .ofPower hderives, hdepth⟩

end Levels

section Chains

variable {bound : Nat} {level operandLevel : Level}
variable {op? : Token ν → Option BinaryOp} {operand : Parser ν}

/-- The rule that continues a chain: a chain, an operator and an operand are a
chain. -/
def Continues (level operandLevel : Level)
    (op? : Token ν → Option BinaryOp) : Prop :=
  ∀ ⦃token : Token ν⦄ ⦃op : BinaryOp⦄ ⦃before after : List (Token ν)⦄
    ⦃left right : Expr ν⦄ ⦃depth depth' : Nat⦄, op? token = some op →
    Derives level before left depth → Derives operandLevel after right depth' →
    Derives level (before ++ token :: after) (.binary op left right)
      (max depth depth')

/-- The induction is on the rounds; what is kept is that everything taken so
far derives the left operand. -/
theorem chainFrom_reads (hcontinue : Continues level operandLevel op?)
    (hoperand : Reads bound operandLevel operand) {rounds : Nat}
    {before tokens rest : List (Lexeme ν)} {left e : Expr ν} {depth : Nat}
    (hleft : Derives level (before.map Lexeme.token) left depth)
    (hdepth : depth < bound)
    (h : chainFrom op? operand rounds left tokens = .ok (e, rest)) :
    ∃ taken depth', tokens = taken ++ rest ∧
      Derives level ((before ++ taken).map Lexeme.token) e depth' ∧
      depth' < bound := by
  have hstop : ∃ taken depth', tokens = taken ++ tokens ∧
      Derives level ((before ++ taken).map Lexeme.token) left depth' ∧
      depth' < bound := ⟨[], depth, rfl, by simpa using hleft, hdepth⟩
  induction rounds generalizing before tokens left depth with
  | zero =>
      cases h
      exact hstop
  | succ rounds ih =>
      match tokens, h with
      | [], h =>
          cases h
          exact hstop
      | next :: after, h =>
          simp only [chainFrom] at h
          split at h
          · cases h
            exact hstop
          · next op hop =>
            obtain ⟨⟨right, after'⟩, hright, hafter'⟩ := bind_eq_ok_iff.1 h
            obtain ⟨taken, depth', rfl, hderives, hdepth'⟩ :=
              hoperand _ _ _ hright
            have hleft' : Derives level
                ((before ++ next :: taken).map Lexeme.token)
                (.binary op left right) (max depth depth') := by
              rw [List.map_append, List.map_cons]
              exact hcontinue hop hleft hderives
            obtain ⟨taken', depth'', rfl, hderives', hdepth''⟩ :=
              ih hleft' (by omega) hafter'
                ⟨[], _, rfl, by simpa using hleft', by omega⟩
            refine ⟨next :: taken ++ taken', depth'', by simp, ?_, hdepth''⟩
            simpa using hderives'

theorem chain_reads (hcontinue : Continues level operandLevel op?)
    (hfirst : ∀ ⦃tokens : List (Token ν)⦄ ⦃e depth⦄,
      Derives operandLevel tokens e depth → Derives level tokens e depth)
    (hoperand : Reads bound operandLevel operand) :
    Reads bound level (chain op? operand) := by
  intro tokens e rest h
  obtain ⟨⟨left, after⟩, hleft, hafter⟩ := bind_eq_ok_iff.1 h
  obtain ⟨taken, depth, rfl, hderives, hdepth⟩ := hoperand _ _ _ hleft
  obtain ⟨taken', depth', rfl, hderives', hdepth'⟩ :=
    chainFrom_reads hcontinue hoperand (hfirst hderives) hdepth hafter
  exact ⟨taken ++ taken', depth', by simp, hderives', hdepth'⟩

end Chains

theorem continues_multiplicative :
    Continues (ν := ν) .multiplicative .unary multiplicativeOp? := by
  intro token op before after left right depth depth' hop hleft hright
  unfold multiplicativeOp? at hop
  split at hop
  · cases hop
    exact .product (.inl rfl) hleft hright
  · cases hop
    exact .product (.inr rfl) hleft hright
  · cases hop

theorem continues_additive :
    Continues (ν := ν) .additive .multiplicative additiveOp? := by
  intro token op before after left right depth depth' hop hleft hright
  unfold additiveOp? at hop
  split at hop
  · cases hop
    exact .sum (.inl rfl) hleft hright
  · cases hop
    exact .sum (.inr rfl) hleft hright
  · cases hop

section Levels

variable {bound : Nat} {inner : Inner ν} (last : Option (Lexeme ν))

theorem multiplicative_reads (hinner : inner.Reads bound) :
    Reads (bound + 1) .multiplicative (multiplicative last inner) :=
  chain_reads continues_multiplicative (fun _ _ _ => .ofUnary)
    (unary_reads last hinner)

theorem additive_reads (hinner : inner.Reads bound) :
    Reads (bound + 1) .additive (additive last inner) :=
  chain_reads continues_additive (fun _ _ _ => .ofMultiplicative)
    (multiplicative_reads last hinner)

end Levels

/-- With room for so many levels, the phrases of the next level are nested
less deep than that. Without room there are none. -/
theorem inner_reads (last : Option (Lexeme ν)) (room : Nat) :
    (inner last room).Reads room := by
  induction room with
  | zero =>
      constructor
      · intro position tokens e rest h
        cases h
      · intro position tokens e rest h
        cases h
  | succ room ih =>
      constructor
      · intro position
        exact unary_reads last ih
      · intro position
        exact additive_reads last ih

end SciCalc.Parser
