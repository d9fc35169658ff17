import SciCalc.Proofs.Expression.Whitespace

/-!
# Expressions with exact numbers

An expression can be read with its numbers as the decimals that were written,
before they are rounded to doubles. Neither the cutting of a text nor the
grammar looks at the value of a number, so a text has a tree of doubles exactly
when it has a tree of decimals, and the one is the other with its numbers
rounded.
-/

namespace SciCalc

instance : Literal Decimal.Scaled where
  read? := Decimal.readRun?
  text d := String.ofList d.positional

variable {ν μ : Type}

/-! ## Other numbers in the same place -/

namespace Expr

mutual

/-- The tree with other numbers. -/
def map (f : ν → μ) : Expr ν → Expr μ
  | number value => number (f value)
  | identifier name => identifier name
  | neg operand => neg (operand.map f)
  | binary op left right => binary op (left.map f) (right.map f)
  | call function arguments => call function (mapAll f arguments)

def mapAll (f : ν → μ) : List (Expr ν) → List (Expr μ)
  | [] => []
  | e :: es => e.map f :: mapAll f es

end

end Expr

def Token.map (f : ν → μ) : Token ν → Token μ
  | number value => number (f value)
  | identifier name => identifier name
  | operator op => operator op
  | leftParen => leftParen
  | rightParen => rightParen
  | comma => comma

def Lexeme.map (f : ν → μ) (l : Lexeme ν) : Lexeme μ :=
  ⟨l.token.map f, l.position⟩

theorem Lexeme.map_token_map (f : ν → μ) (lexemes : List (Lexeme ν)) :
    (lexemes.map (Lexeme.map f)).map Lexeme.token =
      (lexemes.map Lexeme.token).map (Token.map f) := by
  rw [List.map_map, List.map_map]
  rfl

/-! ## Derivations -/

namespace Grammar

variable {level : Level} {depth : Nat}

theorem Derives.map (f : ν → μ) {tokens : List (Token ν)} {e : Expr ν}
    (h : Derives level tokens e depth) :
    Derives level (tokens.map (Token.map f)) (e.map f) depth := by
  induction h with
  | number value => exact .number (f value)
  | identifier hname => exact .identifier hname
  | call hname hargument ih =>
      rw [List.map_cons, List.map_cons, List.map_append]
      exact .call hname ih
  | parenthesised hinside ih =>
      rw [List.map_cons, List.map_append]
      exact .parenthesised ih
  | ofPrimary h ih => exact .ofPrimary ih
  | power hbase hexponent ihBase ihExponent =>
      rw [List.map_append, List.map_cons]
      exact .power ihBase ihExponent
  | ofPower h ih => exact .ofPower ih
  | neg hoperand ih => exact .neg ih
  | ofUnary h ih => exact .ofUnary ih
  | product hop hleft hright ihLeft ihRight =>
      rw [List.map_append, List.map_cons]
      exact .product hop ihLeft ihRight
  | ofMultiplicative h ih => exact .ofMultiplicative ih
  | sum hop hleft hright ihLeft ihRight =>
      rw [List.map_append, List.map_cons]
      exact .sum hop ihLeft ihRight

end Grammar

namespace Token

variable {f : ν → μ} {token : Token ν}

theorem map_eq_number_iff {value : μ} :
    token.map f = .number value ↔
      ∃ value', token = .number value' ∧ f value' = value := by
  cases token <;> simp [map]

theorem map_eq_identifier_iff {name : String} :
    token.map f = .identifier name ↔ token = .identifier name := by
  cases token <;> simp [map]

theorem map_eq_operator_iff {op : BinaryOp} :
    token.map f = .operator op ↔ token = .operator op := by
  cases token <;> simp [map]

theorem map_eq_leftParen_iff : token.map f = .leftParen ↔ token = .leftParen := by
  cases token <;> simp [map]

theorem map_eq_rightParen_iff :
    token.map f = .rightParen ↔ token = .rightParen := by
  cases token <;> simp [map]

end Token

namespace Grammar

variable {level : Level} {depth : Nat} {f : ν → μ}

theorem map_eq_between_iff {tokens : List (Token ν)}
    {before after : List (Token μ)} {op : BinaryOp} :
    tokens.map (Token.map f) = before ++ .operator op :: after ↔
      ∃ before' after', tokens = before' ++ .operator op :: after' ∧
        before'.map (Token.map f) = before ∧ after'.map (Token.map f) = after := by
  simp only [List.map_eq_append_iff, List.map_eq_cons_iff,
    Token.map_eq_operator_iff]
  grind

theorem map_eq_parenthesised_iff {tokens : List (Token ν)}
    {inside : List (Token μ)} :
    tokens.map (Token.map f) = .leftParen :: (inside ++ [.rightParen]) ↔
      ∃ inside', tokens = .leftParen :: (inside' ++ [.rightParen]) ∧
        inside'.map (Token.map f) = inside := by
  simp only [List.map_eq_append_iff, List.map_eq_cons_iff,
    List.map_eq_nil_iff, Token.map_eq_leftParen_iff,
    Token.map_eq_rightParen_iff]
  grind

/-- Every derivation over other numbers is one of these. -/
theorem Derives.exists_of_map {tokens : List (Token ν)} {e : Expr μ}
    (h : Derives level (tokens.map (Token.map f)) e depth) :
    ∃ e', Derives level tokens e' depth ∧ e'.map f = e := by
  generalize htokens : tokens.map (Token.map f) = mapped at h
  induction h generalizing tokens with
  | number value =>
      obtain ⟨token, rfl, htoken⟩ := List.map_eq_singleton_iff.1 htokens
      obtain ⟨value', rfl, rfl⟩ := Token.map_eq_number_iff.1 htoken
      exact ⟨_, .number value', rfl⟩
  | identifier hname =>
      obtain ⟨token, rfl, htoken⟩ := List.map_eq_singleton_iff.1 htokens
      obtain rfl := Token.map_eq_identifier_iff.1 htoken
      exact ⟨_, .identifier hname, rfl⟩
  | call hname hargument ih =>
      obtain ⟨token, others, rfl, htoken, hothers⟩ :=
        List.map_eq_cons_iff.1 htokens
      obtain rfl := Token.map_eq_identifier_iff.1 htoken
      obtain ⟨inside, rfl, hinside⟩ := map_eq_parenthesised_iff.1 hothers
      obtain ⟨argument, hargument', rfl⟩ := ih hinside
      exact ⟨_, .call hname hargument', rfl⟩
  | parenthesised hinside ih =>
      obtain ⟨inside, rfl, hinside'⟩ := map_eq_parenthesised_iff.1 htokens
      obtain ⟨e', he', rfl⟩ := ih hinside'
      exact ⟨_, .parenthesised he', rfl⟩
  | ofPrimary h ih =>
      obtain ⟨e', he', rfl⟩ := ih htokens
      exact ⟨_, .ofPrimary he', rfl⟩
  | power hbase hexponent ihBase ihExponent =>
      obtain ⟨before, after, rfl, hbefore, hafter⟩ :=
        map_eq_between_iff.1 htokens
      obtain ⟨base, hbase', rfl⟩ := ihBase hbefore
      obtain ⟨exponent, hexponent', rfl⟩ := ihExponent hafter
      exact ⟨_, .power hbase' hexponent', rfl⟩
  | ofPower h ih =>
      obtain ⟨e', he', rfl⟩ := ih htokens
      exact ⟨_, .ofPower he', rfl⟩
  | neg hoperand ih =>
      obtain ⟨token, others, rfl, htoken, hothers⟩ :=
        List.map_eq_cons_iff.1 htokens
      obtain rfl := Token.map_eq_operator_iff.1 htoken
      obtain ⟨operand, hoperand', rfl⟩ := ih hothers
      exact ⟨_, .neg hoperand', rfl⟩
  | ofUnary h ih =>
      obtain ⟨e', he', rfl⟩ := ih htokens
      exact ⟨_, .ofUnary he', rfl⟩
  | product hop hleft hright ihLeft ihRight =>
      obtain ⟨before, after, rfl, hbefore, hafter⟩ :=
        map_eq_between_iff.1 htokens
      obtain ⟨left, hleft', rfl⟩ := ihLeft hbefore
      obtain ⟨right, hright', rfl⟩ := ihRight hafter
      exact ⟨_, .product hop hleft' hright', rfl⟩
  | ofMultiplicative h ih =>
      obtain ⟨e', he', rfl⟩ := ih htokens
      exact ⟨_, .ofMultiplicative he', rfl⟩
  | sum hop hleft hright ihLeft ihRight =>
      obtain ⟨before, after, rfl, hbefore, hafter⟩ :=
        map_eq_between_iff.1 htokens
      obtain ⟨left, hleft', rfl⟩ := ihLeft hbefore
      obtain ⟨right, hright', rfl⟩ := ihRight hafter
      exact ⟨_, .sum hop hleft' hright', rfl⟩

end Grammar

/-! ## Texts -/

/-- The same runs are read as numbers of both kinds, and `f` takes the one
number to the other. -/
def Literal.Agrees [Literal ν] [Literal μ] (f : ν → μ) : Prop :=
  ∀ run, (Literal.read? run : Option μ) = (Literal.read? run).map f

theorem Token.ofChar?_map (f : ν → μ) (c : Char) :
    (Token.ofChar? c : Option (Token μ)) = (Token.ofChar? c).map (Token.map f) := by
  unfold Token.ofChar?
  split <;> rfl

theorem Token.continues_map (f : ν → μ) (token : Token ν) :
    (token.map f).continues = token.continues := by
  cases token <;> rfl

section Texts

variable [Literal ν] [Literal μ] {f : ν → μ} (hf : Literal.Agrees f)

include hf

theorem Token.spelled_map_iff {run : List Char} {token : Token μ} :
    token.Spelled run ↔
      ∃ token' : Token ν, token'.Spelled run ∧ token'.map f = token := by
  constructor
  · rintro (⟨hne, hrun, hread⟩ | ⟨hne, hrun⟩ | htoken)
    · rw [hf] at hread
      obtain ⟨value, hread', rfl⟩ := Option.map_eq_some_iff.1 hread
      exact ⟨_, .number hne hrun hread', rfl⟩
    · exact ⟨_, .identifier hne hrun, rfl⟩
    · rw [Token.ofChar?_map f] at htoken
      obtain ⟨token', htoken', rfl⟩ := Option.map_eq_some_iff.1 htoken
      exact ⟨token', .symbol htoken', rfl⟩
  · rintro ⟨token', hne, rfl⟩
    cases hne with
    | number hne hrun hread =>
        exact .number hne hrun (by rw [hf, hread]; rfl)
    | identifier hne hrun => exact .identifier hne hrun
    | symbol htoken =>
        exact .symbol (by rw [Token.ofChar?_map f, htoken]; rfl)

/-- A text is cut at the same places. -/
theorem Lexeme.Cut.exists_of_map {before : Option Char} {index : Nat}
    {text : List Char} {typed full : List (Lexeme μ)}
    (h : Cut before index text typed full) :
    ∃ typed' full' : List (Lexeme ν), Cut before index text typed' full' ∧
      full'.map (Lexeme.map f) = full := by
  induction h with
  | nil => exact ⟨[], [], .nil, rfl⟩
  | blank hblank h ih =>
      obtain ⟨typed', full', hcut, rfl⟩ := ih
      exact ⟨typed', full', .blank hblank hcut, rfl⟩
  | product hjoins h ih =>
      obtain ⟨typed', full', hcut, rfl⟩ := ih
      exact ⟨typed', _, .product hjoins hcut, rfl⟩
  | token hspelled hfree hstop h ih =>
      obtain ⟨typed', full', hcut, rfl⟩ := ih
      obtain ⟨token', hspelled', rfl⟩ := (Token.spelled_map_iff hf).1 hspelled
      rw [Token.continues_map] at hstop
      exact ⟨_, _, .token hspelled' hfree hstop hcut, rfl⟩

theorem Lexeme.Cut.map {before : Option Char} {index : Nat}
    {text : List Char} {typed full : List (Lexeme ν)}
    (h : Cut before index text typed full) :
    Cut before index text (typed.map (Lexeme.map f))
      (full.map (Lexeme.map f)) := by
  induction h with
  | nil => exact .nil
  | blank hblank h ih => exact .blank hblank ih
  | product hjoins h ih => exact .product hjoins ih
  | @token _ _ _ _ token _ _ hspelled hfree hstop h ih =>
      rw [← Token.continues_map f] at hstop
      exact .token ((Token.spelled_map_iff hf).2 ⟨token, hspelled, rfl⟩) hfree
        hstop ih

/-- The trees of a text over two kinds of numbers. -/
theorem parseChars_eq_ok_iff_map {text : List Char} {e : Expr μ} :
    parseChars text = .ok e ↔
      ∃ e' : Expr ν, parseChars text = .ok e' ∧ e'.map f = e := by
  constructor
  · intro h
    obtain ⟨typed, full, depth, hcut, hderives, hdepth⟩ :=
      exists_cut_of_parseChars h
    obtain ⟨typed', full', hcut', rfl⟩ := hcut.exists_of_map hf
    rw [Lexeme.map_token_map] at hderives
    obtain ⟨e', hderives', rfl⟩ := hderives.exists_of_map
    exact ⟨e', parseChars_of_cut hcut' hderives' hdepth, rfl⟩
  · rintro ⟨e', h, rfl⟩
    obtain ⟨typed, full, depth, hcut, hderives, hdepth⟩ :=
      exists_cut_of_parseChars h
    have hderives' := hderives.map f
    rw [← Lexeme.map_token_map] at hderives'
    exact parseChars_of_cut (hcut.map hf) hderives' hdepth

end Texts

/-- Doubles are read by rounding decimals. -/
theorem Literal.agrees_toFloat : Agrees Decimal.Scaled.toFloat :=
  fun _ => rfl

/-- The tree of a text is its exact tree with all numbers rounded to doubles. -/
theorem parse_eq_ok_iff_exact {text : String} {e : Expr Float} :
    parse text = .ok e ↔
      ∃ e' : Expr Decimal.Scaled, parse text = .ok e' ∧
        e'.map Decimal.Scaled.toFloat = e :=
  parseChars_eq_ok_iff_map Literal.agrees_toFloat

end SciCalc
