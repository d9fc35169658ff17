import SciCalc.Proofs.Expression.Faults
import SciCalc.Proofs.Expression.Grammar

/-!
# Names in a phrase

A phrase names functions, constants and variables. In the tree that a phrase
derives every function is called with one argument, and the variables occur in
the order of the tokens. So the faults of such a tree are its variables without
a value, in this order.
-/

namespace SciCalc

open Outcome

variable {ν : Type}

theorem mem_insertName {name added : String} {names : List String} :
    name ∈ insertName added names ↔ name = added ∨ name ∈ names := by
  induction names with
  | nil => simp [insertName]
  | cons first rest ih =>
      unfold insertName
      split
      · exact List.mem_cons
      · split
        · next heq => simp [heq]
        · rw [List.mem_cons, ih, List.mem_cons, or_left_comm]

/-- The free variables are the names that occur as variables. -/
theorem Expr.mem_freeVariables {e : Expr ν} {name : String} :
    name ∈ e.freeVariables ↔ name ∈ e.occurrences := by
  unfold freeVariables
  induction e.occurrences with
  | nil => rfl
  | cons first rest ih =>
      rw [List.foldr_cons, mem_insertName, ih, List.mem_cons]

/-- The name that a token is. -/
def Token.name? : Token ν → Option String
  | .identifier name => some name
  | _ => none

theorem Token.mem_name? {token : Token ν} {name : String} :
    name ∈ token.name? ↔ token = .identifier name := by
  cases token <;> simp [Token.name?, eq_comm]

/-- The name is that of neither a function nor a constant. -/
def isVariable (name : String) : Bool :=
  (Elementary.ofName? name).isNone && (constant? name).isNone

/-- The names among tokens that are variables, from left to right. -/
def variablesOf (tokens : List (Token ν)) : List String :=
  (tokens.filterMap Token.name?).filter isVariable

theorem mem_variablesOf {tokens : List (Token ν)} {name : String} :
    name ∈ variablesOf tokens ↔
      .identifier name ∈ tokens ∧ isVariable name = true := by
  rw [variablesOf, List.mem_filter, List.mem_filterMap]
  constructor
  · rintro ⟨⟨token, htoken, hname⟩, hvariable⟩
    rw [Token.mem_name?.1 hname] at htoken
    exact ⟨htoken, hvariable⟩
  · rintro ⟨htoken, hvariable⟩
    exact ⟨⟨_, htoken, rfl⟩, hvariable⟩

@[simp]
theorem variablesOf_append (before after : List (Token ν)) :
    variablesOf (before ++ after) =
      variablesOf before ++ variablesOf after := by
  rw [variablesOf, List.filterMap_append, List.filter_append]
  rfl

theorem variablesOf_cons_of_none {token : Token ν} (h : token.name? = none)
    (rest : List (Token ν)) :
    variablesOf (token :: rest) = variablesOf rest := by
  rw [variablesOf, List.filterMap_cons_none h]
  rfl

theorem variablesOf_cons_function {name : String} {f : Elementary}
    (h : Elementary.ofName? name = some f) (rest : List (Token ν)) :
    variablesOf (.identifier name :: rest) = variablesOf rest := by
  have hname : (Token.identifier (ν := ν) name).name? = some name := rfl
  rw [variablesOf, List.filterMap_cons_some hname,
    List.filter_cons_of_neg (by simp [isVariable, h])]
  rfl

/-- Parentheses hold no names. -/
theorem variablesOf_parenthesised (tokens : List (Token ν)) :
    variablesOf (.leftParen :: (tokens ++ [.rightParen])) =
      variablesOf tokens := by
  rw [variablesOf_cons_of_none rfl, variablesOf_append,
    variablesOf_cons_of_none rfl]
  exact List.append_nil _

/-- Nor do operators between phrases. -/
theorem variablesOf_between (before : List (Token ν)) (op : BinaryOp)
    (after : List (Token ν)) :
    variablesOf (before ++ .operator op :: after) =
      variablesOf before ++ variablesOf after := by
  rw [variablesOf_append, variablesOf_cons_of_none rfl]

namespace Grammar.Derives

variable {level : Level} {tokens : List (Token ν)} {e : Expr ν} {depth : Nat}

/-- The variables occur in a tree as they do in its phrase. -/
theorem occurrences_eq (h : Derives level tokens e depth) :
    e.occurrences = variablesOf tokens := by
  induction h with
  | number value => rfl
  | @identifier name hname =>
      cases hconstant : constant? name with
      | none => simp [Expr.occurrences, variablesOf, Token.name?, isVariable,
          hname, hconstant]
      | some value => simp [Expr.occurrences, variablesOf, Token.name?,
          isVariable, hname, hconstant]
  | call hname hargument ih =>
      rw [variablesOf_cons_function hname, variablesOf_parenthesised, ← ih]
      simp [Expr.occurrences, Expr.occurrencesAll]
  | parenthesised hinside ih => rw [variablesOf_parenthesised, ih]
  | ofPrimary h ih => exact ih
  | power hbase hexponent ihBase ihExponent =>
      rw [variablesOf_between, ← ihBase, ← ihExponent]
      rfl
  | ofPower h ih => exact ih
  | neg hoperand ih => rw [variablesOf_cons_of_none rfl, ← ih]; rfl
  | ofUnary h ih => exact ih
  | product hop hleft hright ihLeft ihRight =>
      rw [variablesOf_between, ← ihLeft, ← ihRight]
      rfl
  | ofMultiplicative h ih => exact ih
  | sum hop hleft hright ihLeft ihRight =>
      rw [variablesOf_between, ← ihLeft, ← ihRight]
      rfl

theorem mem_freeVariables (h : Derives level tokens e depth) {name : String} :
    name ∈ e.freeVariables ↔
      .identifier name ∈ tokens ∧ isVariable name = true := by
  rw [Expr.mem_freeVariables, h.occurrences_eq, mem_variablesOf]

/-- Nothing but a variable without a value is at fault. -/
theorem faults_eq (h : Derives level tokens e depth) (c : Context) :
    e.faults c = (e.occurrences.filter fun name =>
      (c.lookup? name).isNone).map EvalError.unknownIdentifier := by
  induction h with
  | number value => rfl
  | @identifier name hname =>
      cases hconstant : constant? name with
      | some value =>
          simp [Expr.faults, Expr.occurrences, Context.resolve?, hconstant]
      | none =>
          cases hvalue : c.lookup? name <;>
            simp [Expr.faults, Expr.occurrences, Context.resolve?, hconstant,
              hvalue]
  | call hname hargument ih =>
      simp only [Expr.faults, Expr.faultsAll, Expr.occurrences,
        Expr.occurrencesAll, callFaults, hname, List.append_nil]
      rw [ih]
      rfl
  | parenthesised hinside ih => exact ih
  | ofPrimary h ih => exact ih
  | power hbase hexponent ihBase ihExponent =>
      rw [Expr.faults, Expr.occurrences, ihBase, ihExponent,
        List.filter_append, List.map_append]
  | ofPower h ih => exact ih
  | neg hoperand ih => exact ih
  | ofUnary h ih => exact ih
  | product hop hleft hright ihLeft ihRight =>
      rw [Expr.faults, Expr.occurrences, ihLeft, ihRight,
        List.filter_append, List.map_append]
  | ofMultiplicative h ih => exact ih
  | sum hop hleft hright ihLeft ihRight =>
      rw [Expr.faults, Expr.occurrences, ihLeft, ihRight,
        List.filter_append, List.map_append]

end Grammar.Derives

end SciCalc
