import SciCalc.Proofs.Expression.ParserSoundness

/-!
# Completeness of the parser

A parser in front of a phrase takes exactly that phrase, unless the tokens
behind it could go on with it. When the derivation of the phrase is nested
deeper than there is room for, the parser says so and nothing else.
-/

namespace SciCalc.Parser

open Grammar Outcome

variable {ν : Type}

/-- The tokens that can go on with a phrase of a level. A parenthesis turns an
identifier into a call. -/
def extends? : Level → Token ν → Bool
  | _, .leftParen => true
  | .power, .operator .pow | .unary, .operator .pow => true
  | .multiplicative, .operator op => op = .pow || op = .mul || op = .div
  | .additive, .operator _ => true
  | _, _ => false

/-- No token behind a phrase of the level goes on with it. -/
def Stops (level : Level) (rest : List (Lexeme ν)) : Prop :=
  ∀ next ∈ rest.head?, extends? level next.token = false

/-- With enough room for the depth the outcome is the expected one, and
without it the nesting is to blame. -/
def Fits {α : Type} (room depth : Nat)
    (outcome expected : Except (ParseError ν) α) : Prop :=
  (depth ≤ room → outcome = expected) ∧
    (room < depth → ∃ position, outcome = .error (.here position .tooDeep))

theorem Fits.of_eq {α : Type} {room : Nat}
    {outcome expected : Except (ParseError ν) α} (h : outcome = expected) :
    Fits room 0 outcome expected :=
  ⟨fun _ => h, fun hroom => absurd hroom (Nat.not_lt_zero room)⟩

theorem Fits.bind {α β : Type} {room depth depth' : Nat}
    {first : Except (ParseError ν) α} {value : α}
    {next : α → Except (ParseError ν) β} {expected : Except (ParseError ν) β}
    (hfirst : Fits room depth first (.ok value))
    (hnext : Fits room depth' (next value) expected) :
    Fits room (max depth depth') (first >>= next) expected := by
  constructor
  · intro hroom
    rw [hfirst.1 (by omega), ok_bind]
    exact hnext.1 (by omega)
  · intro hroom
    by_cases hdepth : room < depth
    · obtain ⟨position, herror⟩ := hfirst.2 hdepth
      exact ⟨position, by rw [herror, error_bind]⟩
    · rw [hfirst.1 (by omega), ok_bind]
      exact hnext.2 (by omega)

/-- One phrase after the other: the deeper one decides. -/
theorem Fits.trans {α : Type} {room depth depth' : Nat}
    {outcome middle expected : Except (ParseError ν) α}
    (hfirst : Fits room depth outcome middle)
    (hnext : Fits room depth' middle expected) :
    Fits room (max depth depth') outcome expected := by
  constructor
  · intro hroom
    rw [hfirst.1 (by omega), hnext.1 (by omega)]
  · intro hroom
    by_cases hdepth : room < depth
    · exact hfirst.2 hdepth
    · rw [hfirst.1 (by omega)]
      exact hnext.2 (by omega)

/-- Steps behind a phrase that only pass its tree on. -/
theorem Fits.bind_eq {α β : Type} {room depth : Nat}
    {first : Except (ParseError ν) α} (value : α)
    {next : α → Except (ParseError ν) β} {expected : Except (ParseError ν) β}
    (hfirst : Fits room depth first (.ok value))
    (hnext : next value = expected) :
    Fits room depth (first >>= next) expected := by
  have hlast : Fits room 0 (next value) expected := .of_eq hnext
  simpa using hfirst.bind hlast

/-- A parser that works one level deeper reports the nesting when no level is
left, and is given one level less otherwise. -/
theorem Fits.deeper {α : Type} {depth : Nat}
    {expected : Except (ParseError ν) α}
    (outcome : Nat → Except (ParseError ν) α)
    (hzero : ∃ position, outcome 0 = .error (.here position .tooDeep))
    (hsucc : ∀ room, Fits room depth (outcome (room + 1)) expected)
    (room : Nat) : Fits room (depth + 1) (outcome room) expected := by
  cases room with
  | zero => exact ⟨fun hroom => absurd hroom (by omega), fun _ => hzero⟩
  | succ room =>
      constructor
      · intro hroom
        exact (hsucc room).1 (by omega)
      · intro hroom
        exact (hsucc room).2 (by omega)

section Deeper

variable {depth : Nat} {tokens : List (Lexeme ν)}
variable {expected : Except (ParseError ν) (Expr ν × List (Lexeme ν))}
variable (last : Option (Lexeme ν)) (position room : Nat)

theorem fits_inner_unary
    (h : ∀ room, Fits room depth (unary last (inner last room) tokens)
      expected) :
    Fits room (depth + 1) ((inner last room).unary position tokens)
      expected :=
  .deeper (fun room => (inner last room).unary position tokens)
    ⟨position, rfl⟩ h room

theorem fits_inner_additive
    (h : ∀ room, Fits room depth (additive last (inner last room) tokens)
      expected) :
    Fits room (depth + 1) ((inner last room).additive position tokens)
      expected :=
  .deeper (fun room => (inner last room).additive position tokens)
    ⟨position, rfl⟩ h room

end Deeper

/-! ## Chains -/

section Chains

variable {op? : Token ν → Option BinaryOp} {operand : Parser ν}

/-- Rounds beyond the number of tokens are never used. -/
theorem chainFrom_rounds (hoperand : Shrinks operand) {rounds rounds' : Nat}
    {left : Expr ν} {tokens : List (Lexeme ν)}
    (hrounds : tokens.length ≤ rounds) (hrounds' : tokens.length ≤ rounds') :
    chainFrom op? operand rounds left tokens =
      chainFrom op? operand rounds' left tokens := by
  induction rounds generalizing rounds' left tokens with
  | zero =>
      obtain rfl := List.length_eq_zero_iff.1 (Nat.le_zero.1 hrounds)
      cases rounds' <;> rfl
  | succ rounds ih =>
      match tokens, rounds' with
      | [], 0 => rfl
      | [], _ + 1 => rfl
      | next :: rest, 0 => simp at hrounds'
      | next :: rest, rounds' + 1 =>
          simp only [chainFrom]
          cases op? next.token with
          | none => rfl
          | some op =>
              cases hright : operand rest with
              | error cause => rfl
              | ok result =>
                  obtain ⟨right, after⟩ := result
                  have hshorter := hoperand _ _ _ hright
                  simp only [List.length_cons] at hrounds hrounds'
                  simp only [ok_bind]
                  exact ih (by omega) (by omega)

/-- A token that is no operator of the chain ends it. -/
theorem chainFrom_stop {left : Expr ν} {tokens : List (Lexeme ν)}
    (hstop : ∀ next ∈ tokens.head?, op? next.token = none) (rounds : Nat) :
    chainFrom op? operand rounds left tokens = .ok (left, tokens) := by
  match tokens, rounds with
  | [], 0 => rfl
  | [], _ + 1 => rfl
  | _ :: _, 0 => rfl
  | next :: rest, rounds + 1 => simp [chainFrom, hstop next rfl]

/-- One more operator and operand in front of what is left. -/
theorem chainFrom_step (hoperand : Shrinks operand) (left : Expr ν)
    {right : Expr ν} (next : Lexeme ν) {op : BinaryOp}
    {tokens rest : List (Lexeme ν)} {room depth : Nat}
    (hop : op? next.token = some op)
    (hright : Fits room depth (operand tokens) (.ok (right, rest))) :
    Fits room depth
      (chainFrom op? operand (next :: tokens).length left (next :: tokens))
      (chainFrom op? operand rest.length (.binary op left right) rest) := by
  simp only [List.length_cons, chainFrom, hop]
  constructor
  · intro hroom
    have hparse := hright.1 hroom
    have hshorter : rest.length < tokens.length := hoperand _ _ _ hparse
    rw [hparse, ok_bind]
    exact chainFrom_rounds hoperand hshorter.le le_rfl
  · intro hroom
    obtain ⟨position, herror⟩ := hright.2 hroom
    exact ⟨position, by rw [herror, error_bind]⟩

end Chains

/-! ## Phrases -/

section Phrases

variable (last : Option (Lexeme ν)) (room : Nat)

/-- The parser of a level. -/
def ofLevel (inner : Inner ν) : Level → Parser ν
  | .additive => additive last inner
  | .multiplicative => multiplicative last inner
  | .unary => unary last inner
  | .power => power last inner
  | .primary => primary last inner

/-- What the parser of a level does behind a phrase of that level: in a chain
it looks for another operator. -/
def resume (inner : Inner ν) : Level → Expr ν → Parser ν
  | .additive, e => fun rest =>
    chainFrom additiveOp? (multiplicative last inner) rest.length e rest
  | .multiplicative, e => fun rest =>
    chainFrom multiplicativeOp? (unary last inner) rest.length e rest
  | .unary, e | .power, e | .primary, e => fun rest => .ok (e, rest)

/-- The level of the operands that a chain is made of. -/
def operandLevel : Level → Level
  | .additive => .multiplicative
  | .multiplicative => .unary
  | .unary => .unary
  | .power => .power
  | .primary => .primary

theorem primary_identifier {inner : Inner ν} {name : String} {position : Nat}
    {rest : List (Lexeme ν)} (hname : Elementary.ofName? name = none)
    (hstop : Stops .primary rest) :
    primary last inner (⟨.identifier name, position⟩ :: rest) =
      .ok (.identifier name, rest) := by
  match rest with
  | [] => simp [primary, hname]
  | ⟨token, place⟩ :: rest =>
      have hstop' := hstop _ rfl
      cases token with
      | leftParen => cases hstop'
      | number value => simp [primary, hname]
      | identifier other => simp [primary, hname]
      | operator op => simp [primary, hname]
      | rightParen => simp [primary, hname]
      | comma => simp [primary, hname]

/-- A parenthesis in front of a phrase opens an additive one. -/
theorem primary_leftParen {inner : Inner ν} {opening position : Nat}
    {token : Token ν} {rest : List (Lexeme ν)} (hopens : token.opens true) :
    primary last inner (⟨.leftParen, opening⟩ :: ⟨token, position⟩ :: rest) =
      (inner.additive opening (⟨token, position⟩ :: rest) >>= fun result =>
        closing opening result.2 >>= fun after => .ok (result.1, after)) := by
  cases token <;> first | rfl | cases hopens

theorem arguments_of_opens {argument : Parser ν} {opening position : Nat}
    {token : Token ν} {rest : List (Lexeme ν)} (hopens : token.opens true) :
    arguments argument opening (⟨token, position⟩ :: rest) =
      (argument (⟨token, position⟩ :: rest) >>= fun result =>
        argumentsFrom argument result.2.length result.2 >>= fun others =>
          closing opening others.2 >>= fun after =>
            .ok (result.1 :: others.1, after)) := by
  cases token <;> first | rfl | cases hopens

/-- Without a sign in front the parser of signs is that of powers. -/
theorem unary_eq_power {inner : Inner ν} {position : Nat} {token : Token ν}
    {rest : List (Lexeme ν)} (hopens : token.opens false) :
    unary last inner (⟨token, position⟩ :: rest) =
      power last inner (⟨token, position⟩ :: rest) := by
  cases token with
  | operator op => cases op <;> cases hopens
  | number value => rfl
  | identifier name => rfl
  | leftParen => rfl
  | rightParen => rfl
  | comma => rfl

/-- Tokens behind a chain end it when nothing goes on with its phrase. -/
theorem resume_of_stops {inner : Inner ν} {level : Level} {e : Expr ν}
    {rest : List (Lexeme ν)} (hstop : Stops level rest) :
    resume last inner level e rest = .ok (e, rest) := by
  cases level with
  | additive =>
      apply chainFrom_stop
      intro next hnext
      have hnext' := hstop next hnext
      cases htoken : next.token with
      | operator op => simp [htoken, extends?] at hnext'
      | _ => rfl
  | multiplicative =>
      apply chainFrom_stop
      intro next hnext
      have hnext' := hstop next hnext
      cases htoken : next.token with
      | operator op => cases op <;> simp_all [extends?, multiplicativeOp?]
      | _ => rfl
  | unary => rfl
  | power => rfl
  | primary => rfl

theorem Stops.operand {level : Level} {rest : List (Lexeme ν)}
    (hstop : Stops level rest) : Stops (operandLevel level) rest := by
  intro next hnext
  have hnext' := hstop next hnext
  cases level with
  | additive =>
      cases htoken : next.token <;> simp_all [extends?]
  | multiplicative =>
      cases htoken : next.token with
      | operator op => cases op <;> simp_all [extends?, operandLevel]
      | _ => simp_all [extends?]
  | unary => exact hnext'
  | power => exact hnext'
  | primary => exact hnext'

theorem Stops.primary_of_power {rest : List (Lexeme ν)}
    (hstop : Stops .power rest) : Stops .primary rest := by
  intro next hnext
  have hnext' := hstop next hnext
  cases htoken : next.token with
  | operator op => cases op <;> rfl
  | _ => simp_all [extends?]

theorem stops_unary_iff {rest : List (Lexeme ν)} :
    Stops .unary rest ↔ Stops .power rest := by
  have hsame : ∀ token : Token ν,
      extends? .unary token = extends? .power token := by
    intro token
    cases token with
    | operator op => cases op <;> rfl
    | _ => rfl
  simp only [Stops, hsame]

theorem stops_rightParen (level : Level) (position : Nat)
    (rest : List (Lexeme ν)) : Stops level (⟨.rightParen, position⟩ :: rest) := by
  intro next hnext
  cases hnext
  cases level <;> rfl

/-- In front of the tokens the parser of the level takes exactly them and goes
on behind them, as far as there is room. -/
def Handled (level : Level) (tokens : List (Token ν)) (e : Expr ν)
    (depth : Nat) : Prop :=
  ∀ (room : Nat) (taken rest : List (Lexeme ν)),
    taken.map Lexeme.token = tokens → Stops (operandLevel level) rest →
    Fits room depth (ofLevel last (inner last room) level (taken ++ rest))
      (resume last (inner last room) level e rest)

variable {last} {level : Level} {tokens : List (Token ν)} {e : Expr ν}
variable {depth : Nat}

theorem Handled.fits (h : Handled last level tokens e depth)
    (taken : List (Lexeme ν)) {rest : List (Lexeme ν)}
    (htaken : taken.map Lexeme.token = tokens) (hstop : Stops level rest) :
    Fits room depth (ofLevel last (inner last room) level (taken ++ rest))
      (.ok (e, rest)) := by
  rw [← resume_of_stops last hstop]
  exact h room taken rest htaken hstop.operand

theorem handled_number (value : ν) :
    Handled last .primary [.number value] (.number value) 0 := by
  intro room taken rest htaken _
  obtain ⟨⟨token, position⟩, rfl, rfl⟩ := List.map_eq_singleton_iff.1 htaken
  exact .of_eq rfl

theorem handled_identifier {name : String}
    (hname : Elementary.ofName? name = none) :
    Handled (ν := ν) last .primary [.identifier name] (.identifier name) 0 := by
  intro room taken rest htaken hstop
  obtain ⟨⟨token, position⟩, rfl, rfl⟩ := List.map_eq_singleton_iff.1 htaken
  exact .of_eq (primary_identifier last hname hstop)

/-- The tokens of a phrase, as lexemes with the first one at hand. -/
theorem exists_first (h : Derives level tokens e depth)
    {taken : List (Lexeme ν)} (htaken : taken.map Lexeme.token = tokens) :
    ∃ token position others, taken = ⟨token, position⟩ :: others ∧
      token.opens level.signed = true := by
  obtain ⟨first, others, rfl, hfirst⟩ := h.head_cases
  obtain ⟨⟨token, position⟩, others', rfl, rfl, -⟩ :=
    List.map_eq_cons_iff.1 htaken
  exact ⟨token, position, others', rfl, hfirst⟩

theorem handled_call {name : String} {f : Elementary}
    (hname : Elementary.ofName? name = some f)
    (hargument : Derives .additive tokens e depth)
    (ih : Handled last .additive tokens e depth) :
    Handled last .primary
      (.identifier name :: .leftParen :: (tokens ++ [.rightParen]))
      (.call name [e]) (depth + 1) := by
  intro room whole rest hwhole _
  obtain ⟨⟨_, position⟩, others, rfl, rfl, hothers⟩ :=
    List.map_eq_cons_iff.1 hwhole
  obtain ⟨⟨_, opening⟩, inside, rfl, rfl, hinside⟩ :=
    List.map_eq_cons_iff.1 hothers
  obtain ⟨taken, closer, rfl, htaken, hcloser⟩ :=
    List.map_eq_append_iff.1 hinside
  obtain ⟨⟨_, closing⟩, rfl, rfl⟩ := List.map_eq_singleton_iff.1 hcloser
  have hfits := fits_inner_additive last opening room fun room =>
    ih.fits room taken htaken (stops_rightParen _ closing rest)
  obtain ⟨token, place, others, rfl, hopens⟩ := exists_first hargument htaken
  have hcall : ofLevel last (inner last room) .primary
      (⟨.identifier name, position⟩ :: ⟨.leftParen, opening⟩ ::
        (⟨token, place⟩ :: others ++ [⟨.rightParen, closing⟩]) ++ rest) =
      call (inner last room) name position opening
        (⟨token, place⟩ :: others ++ ⟨.rightParen, closing⟩ :: rest) := by
    simp [ofLevel, primary]
  rw [hcall]
  unfold call
  simp only [hname, List.cons_append]
  rw [arguments_of_opens hopens]
  refine Fits.bind_eq ([e], rest) (hfits.bind_eq _ ?_) ?_
  · rfl
  · rfl

theorem handled_parenthesised (hinside : Derives .additive tokens e depth)
    (ih : Handled last .additive tokens e depth) :
    Handled last .primary (.leftParen :: (tokens ++ [.rightParen])) e
      (depth + 1) := by
  intro room whole rest hwhole _
  obtain ⟨⟨_, opening⟩, others, rfl, rfl, hothers⟩ :=
    List.map_eq_cons_iff.1 hwhole
  obtain ⟨taken, closer, rfl, htaken, hcloser⟩ :=
    List.map_eq_append_iff.1 hothers
  obtain ⟨⟨_, closing⟩, rfl, rfl⟩ := List.map_eq_singleton_iff.1 hcloser
  have hfits := fits_inner_additive last opening room fun room =>
    ih.fits room taken htaken (stops_rightParen _ closing rest)
  obtain ⟨token, place, others, rfl, hopens⟩ := exists_first hinside htaken
  simp only [ofLevel, List.cons_append, List.append_assoc, List.nil_append]
  rw [primary_leftParen last hopens]
  exact hfits.bind_eq _ rfl

theorem handled_ofPrimary (ih : Handled last .primary tokens e depth) :
    Handled last .power tokens e depth := by
  intro room taken rest htaken hstop
  have hfits := ih.fits room taken htaken hstop.primary_of_power
  apply hfits.bind_eq
  match rest, hstop with
  | [], _ => rfl
  | ⟨token, position⟩ :: after, hstop =>
      have hstop' := hstop _ rfl
      cases token with
      | operator op => cases op <;> first | rfl | cases hstop'
      | _ => rfl

theorem handled_power {before after : List (Token ν)} {base exponent : Expr ν}
    {depth' : Nat} (ihBase : Handled last .primary before base depth)
    (ihExponent : Handled last .unary after exponent depth') :
    Handled last .power (before ++ .operator .pow :: after)
      (.binary .pow base exponent) (max depth (depth' + 1)) := by
  intro room whole rest hwhole hstop
  obtain ⟨taken, others, rfl, hbefore, hothers⟩ :=
    List.map_eq_append_iff.1 hwhole
  obtain ⟨⟨_, caret⟩, taken', rfl, rfl, hafter⟩ :=
    List.map_eq_cons_iff.1 hothers
  have hcaret : Stops .primary
      (⟨.operator .pow, caret⟩ :: (taken' ++ rest)) := by
    rintro next ⟨⟩
    rfl
  have hbase := ihBase.fits room taken hbefore hcaret
  rw [List.append_assoc]
  apply hbase.bind
  apply Fits.bind_eq (exponent, rest) _ rfl
  apply fits_inner_unary
  intro room
  exact ihExponent.fits room taken' hafter (stops_unary_iff.2 hstop)

theorem handled_ofPower (h : Derives .power tokens e depth)
    (ih : Handled last .power tokens e depth) :
    Handled last .unary tokens e depth := by
  intro room taken rest htaken hstop
  have hfits := ih.fits room taken htaken (stops_unary_iff.1 hstop)
  obtain ⟨token, place, others, rfl, hopens⟩ := exists_first h htaken
  simp only [ofLevel, List.cons_append] at hfits ⊢
  rw [unary_eq_power last hopens]
  exact hfits

theorem handled_neg (ih : Handled last .unary tokens e depth) :
    Handled last .unary (.operator .sub :: tokens) (.neg e) (depth + 1) := by
  intro room whole rest hwhole hstop
  obtain ⟨⟨_, minus⟩, taken, rfl, rfl, htaken⟩ :=
    List.map_eq_cons_iff.1 hwhole
  apply Fits.bind_eq (e, rest) _ rfl
  apply fits_inner_unary
  intro room
  exact ih.fits room taken htaken hstop

theorem handled_ofUnary (ih : Handled last .unary tokens e depth) :
    Handled last .multiplicative tokens e depth := by
  intro room taken rest htaken hstop
  exact (ih.fits room taken htaken hstop).bind_eq _ rfl

theorem handled_ofMultiplicative
    (ih : Handled last .multiplicative tokens e depth) :
    Handled last .additive tokens e depth := by
  intro room taken rest htaken hstop
  exact (ih.fits room taken htaken hstop).bind_eq _ rfl

theorem ofLevel_shrinks (room : Nat) (level : Level) :
    Shrinks (ofLevel last (inner last room) level) := by
  have hinner := inner_reads last room
  cases level with
  | additive => exact (additive_reads last hinner).shrinks
  | multiplicative => exact (multiplicative_reads last hinner).shrinks
  | unary => exact (unary_reads last hinner).shrinks
  | power => exact (power_reads last hinner).shrinks
  | primary => exact (primary_reads last hinner).shrinks

/-- One more operator and operand behind a chain. The operator goes on with the
chain and with none of its operands. -/
theorem handled_continued {op? : Token ν → Option BinaryOp} {op : BinaryOp}
    {before after : List (Token ν)} {left right : Expr ν} {depth' : Nat}
    (hchain : ∀ room e rest, resume last (inner last room) level e rest =
      chainFrom op? (ofLevel last (inner last room) (operandLevel level))
        rest.length e rest)
    (hop : op? (.operator op) = some op)
    (hextends : extends? (ν := ν) (operandLevel level) (.operator op) = false)
    (ihLeft : Handled last level before left depth)
    (ihRight : Handled last (operandLevel level) after right depth') :
    Handled last level (before ++ .operator op :: after)
      (.binary op left right) (max depth depth') := by
  intro room whole rest hwhole hstop
  obtain ⟨taken, others, rfl, hbefore, hothers⟩ :=
    List.map_eq_append_iff.1 hwhole
  obtain ⟨⟨_, place⟩, taken', rfl, rfl, hafter⟩ :=
    List.map_eq_cons_iff.1 hothers
  have hstop' : Stops (operandLevel level)
      (⟨.operator op, place⟩ :: (taken' ++ rest)) := by
    rintro next ⟨⟩
    exact hextends
  have hleft := ihLeft room taken _ hbefore hstop'
  have hright := ihRight.fits room taken' hafter hstop
  have hstep := chainFrom_step (ofLevel_shrinks room (operandLevel level)) left
    ⟨.operator op, place⟩ hop hright
  rw [hchain] at hleft ⊢
  rw [List.append_assoc]
  exact hleft.trans hstep

theorem handled_product {op : BinaryOp} {before after : List (Token ν)}
    {left right : Expr ν} {depth' : Nat} (hop : op = .mul ∨ op = .div)
    (ihLeft : Handled last .multiplicative before left depth)
    (ihRight : Handled last .unary after right depth') :
    Handled last .multiplicative (before ++ .operator op :: after)
      (.binary op left right) (max depth depth') := by
  rcases hop with rfl | rfl
  · exact handled_continued (fun _ _ _ => rfl) rfl rfl ihLeft ihRight
  · exact handled_continued (fun _ _ _ => rfl) rfl rfl ihLeft ihRight

theorem handled_sum {op : BinaryOp} {before after : List (Token ν)}
    {left right : Expr ν} {depth' : Nat} (hop : op = .add ∨ op = .sub)
    (ihLeft : Handled last .additive before left depth)
    (ihRight : Handled last .multiplicative after right depth') :
    Handled last .additive (before ++ .operator op :: after)
      (.binary op left right) (max depth depth') := by
  rcases hop with rfl | rfl
  · exact handled_continued (fun _ _ _ => rfl) rfl rfl ihLeft ihRight
  · exact handled_continued (fun _ _ _ => rfl) rfl rfl ihLeft ihRight

variable (last) in
/-- By induction on the derivation: every phrase is handled. -/
theorem handled_of_derives (h : Derives level tokens e depth) :
    Handled last level tokens e depth := by
  induction h with
  | number value => exact handled_number value
  | identifier hname => exact handled_identifier hname
  | call hname hargument ih => exact handled_call hname hargument ih
  | parenthesised hinside ih => exact handled_parenthesised hinside ih
  | ofPrimary _ ih => exact handled_ofPrimary ih
  | power _ _ ihBase ihExponent => exact handled_power ihBase ihExponent
  | ofPower h ih => exact handled_ofPower h ih
  | neg _ ih => exact handled_neg ih
  | ofUnary _ ih => exact handled_ofUnary ih
  | product hop _ _ ihLeft ihRight => exact handled_product hop ihLeft ihRight
  | ofMultiplicative _ ih => exact handled_ofMultiplicative ih
  | sum hop _ _ ihLeft ihRight => exact handled_sum hop ihLeft ihRight

end Phrases

end SciCalc.Parser
