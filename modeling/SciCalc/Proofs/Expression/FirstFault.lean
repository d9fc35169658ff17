import SciCalc.Calculator
import SciCalc.Proofs.Expression.Faults
import SciCalc.Proofs.Plot.Sampling
import SciCalc.Proofs.RecordedCalls

/-!
# The first fault

A node of a tree is at fault by itself, whatever stands beneath it. A tree has
no value exactly when one of its nodes is at fault, and the error is that of
the first such node. The bound values do not count, only which names are bound:
when the variable of an expression takes one value after the other, all
evaluations fail alike or none does.
-/

namespace SciCalc

open Outcome

variable {ν : Type} {c d : Context}

namespace Expr

mutual

/-- The nodes of a tree from left to right, each before those beneath it. -/
def nodes : Expr ν → List (Expr ν)
  | number value => [number value]
  | identifier name => [identifier name]
  | neg operand => neg operand :: operand.nodes
  | binary op left right => binary op left right :: (left.nodes ++ right.nodes)
  | call function arguments => call function arguments :: nodesAll arguments

def nodesAll : List (Expr ν) → List (Expr ν)
  | [] => []
  | e :: es => e.nodes ++ nodesAll es

end

/-- What is wrong with a node itself. -/
inductive Fault (c : Context) : Expr ν → EvalError → Prop
  | unbound {name : String} (hconstant : constant? name = none)
      (hunbound : c.lookup? name = none) :
      Fault c (.identifier name) (.unknownIdentifier name)
  | unknown {function : String} {arguments : List (Expr ν)}
      (hunknown : Elementary.ofName? function = none) :
      Fault c (.call function arguments) (.unknownIdentifier function)
  | arity {function : String} {f : Elementary} {arguments : List (Expr ν)}
      (hknown : Elementary.ofName? function = some f)
      (hcount : arguments.length ≠ 1) :
      Fault c (.call function arguments)
        (.wrongArity function 1 arguments.length)

/-- The first node at fault has this fault. -/
def FirstFault (c : Context) (e : Expr ν) (cause : EvalError) : Prop :=
  ∃ before node after, e.nodes = before ++ node :: after ∧
    (∀ earlier ∈ before, ∀ other, ¬earlier.Fault c other) ∧
    node.Fault c cause

/-! ## Faults of nodes -/

/-- The fault of a node, if it has one. -/
def fault? (c : Context) : Expr ν → Option EvalError
  | identifier name =>
    if (c.resolve? name).isSome then none else some (.unknownIdentifier name)
  | call function arguments => (callFaults function arguments.length).head?
  | _ => none

theorem fault_of_fault? {node : Expr ν} {cause : EvalError}
    (h : node.fault? c = some cause) : node.Fault c cause := by
  cases node with
  | number | neg | binary => cases h
  | identifier name =>
      unfold fault? Context.resolve? at h
      cases hconstant : constant? name with
      | some value => simp [hconstant] at h
      | none =>
          cases hlookup : c.lookup? name with
          | some value => simp [hconstant, hlookup] at h
          | none =>
              obtain rfl : EvalError.unknownIdentifier name = cause := by
                simpa [hconstant, hlookup] using h
              exact .unbound hconstant hlookup
  | call function arguments =>
      unfold fault? callFaults at h
      cases hname : Elementary.ofName? function with
      | none =>
          obtain rfl : EvalError.unknownIdentifier function = cause := by
            simpa [hname] using h
          exact .unknown hname
      | some f =>
          by_cases hcount : arguments.length = 1
          · simp [hname, Elementary.arity, hcount] at h
          · obtain rfl :
                EvalError.wrongArity function 1 arguments.length = cause := by
              simpa [hname, Elementary.arity, hcount] using h
            exact .arity hname hcount

theorem Fault.fault?_eq {node : Expr ν} {cause : EvalError}
    (h : node.Fault c cause) : node.fault? c = some cause := by
  cases h with
  | unbound hconstant hunbound =>
      simp [fault?, Context.resolve?, hconstant, hunbound]
  | unknown hunknown => simp [fault?, callFaults, hunknown]
  | arity hknown hcount =>
      simp [fault?, callFaults, hknown, Elementary.arity, hcount]

theorem fault?_eq_some_iff {node : Expr ν} {cause : EvalError} :
    node.fault? c = some cause ↔ node.Fault c cause :=
  ⟨fault_of_fault?, Fault.fault?_eq⟩

theorem fault?_eq_none_iff {node : Expr ν} :
    node.fault? c = none ↔ ∀ cause, ¬node.Fault c cause := by
  simp only [Option.eq_none_iff_forall_ne_some, ne_eq, fault?_eq_some_iff]

theorem toList_head?_callFaults (function : String) (count : Nat) :
    (callFaults function count).head?.toList = callFaults function count := by
  unfold callFaults
  split
  · rfl
  · split <;> rfl

/-! ## Faults of trees -/

mutual

theorem faults_eq_filterMap (c : Context) (e : Expr ν) :
    e.faults c = e.nodes.filterMap (fault? c) := by
  match e with
  | number value => rfl
  | identifier name =>
      unfold faults nodes
      rw [List.filterMap_cons, List.filterMap_nil, fault?]
      split <;> simp_all
  | neg operand =>
      rw [faults, nodes, List.filterMap_cons_none rfl,
        faults_eq_filterMap c operand]
  | binary op left right =>
      rw [faults, nodes, List.filterMap_cons_none rfl, List.filterMap_append,
        faults_eq_filterMap c left, faults_eq_filterMap c right]
  | call function arguments =>
      rw [faults, nodes, faultsAll_eq_filterMap c arguments,
        ← toList_head?_callFaults, List.filterMap_cons, fault?]
      cases (callFaults function arguments.length).head? <;> rfl

theorem faultsAll_eq_filterMap (c : Context) (es : List (Expr ν)) :
    faultsAll c es = (nodesAll es).filterMap (fault? c) := by
  match es with
  | [] => rfl
  | e :: es =>
      rw [faultsAll, nodesAll, List.filterMap_append, faults_eq_filterMap c e,
        faultsAll_eq_filterMap c es]

end

theorem head?_faults_eq_some_iff {e : Expr ν} {cause : EvalError} :
    (e.faults c).head? = some cause ↔ e.FirstFault c cause := by
  rw [faults_eq_filterMap, List.head?_filterMap, List.findSome?_eq_some_iff]
  simp only [fault?_eq_some_iff, fault?_eq_none_iff]
  constructor
  · rintro ⟨before, node, after, hnodes, hnode, hbefore⟩
    exact ⟨before, node, after, hnodes, hbefore, hnode⟩
  · rintro ⟨before, node, after, hnodes, hbefore, hnode⟩
    exact ⟨before, node, after, hnodes, hnode, hbefore⟩

/-- An evaluation that fails reports the first node at fault. -/
theorem evaluate_eq_error_iff {e : Expr Float} {cause : EvalError} :
    e.evaluate c = .error cause ↔ e.FirstFault c cause := by
  rw [← head?_faults_eq_some_iff]
  have hsettled := evaluate_settled c e
  cases hfaults : e.faults c with
  | nil =>
      rw [hfaults] at hsettled
      obtain ⟨value, hvalue⟩ := hsettled
      simp [hvalue]
  | cons first rest =>
      rw [hfaults] at hsettled
      have hfirst : e.evaluate c = .error first := hsettled
      simp [hfirst]

theorem exists_firstFault_iff {e : Expr ν} :
    (∃ cause, e.FirstFault c cause) ↔
      ∃ node ∈ e.nodes, ∃ cause, node.Fault c cause := by
  simp only [← head?_faults_eq_some_iff, ← fault?_eq_some_iff,
    ← Option.isSome_iff_exists, faults_eq_filterMap, List.head?_filterMap,
    List.findSome?_isSome_iff]

end Expr

/-! ## Contexts that bind the same names -/

/-- The same names have values, which may differ. -/
def Context.SameNames (c d : Context) : Prop :=
  ∀ name, (c.lookup? name).isSome = (d.lookup? name).isSome

theorem Context.sameNames_bind (c : Context) (name : String) (x y : Float) :
    (c.bind name x).SameNames (c.bind name y) := by
  intro other
  by_cases hname : other = name
  · rw [hname, lookup?_bind_self, lookup?_bind_self]
    rfl
  · rw [lookup?_bind_of_ne c x hname, lookup?_bind_of_ne c y hname]

namespace Context.SameNames

theorem isSome_resolve? (h : c.SameNames d) (name : String) :
    (c.resolve? name).isSome = (d.resolve? name).isSome := by
  unfold resolve?
  cases constant? name with
  | some value => rfl
  | none => exact h name

theorem fault?_eq (h : c.SameNames d) (node : Expr ν) :
    node.fault? c = node.fault? d := by
  cases node with
  | number | neg | binary | call => rfl
  | identifier name => rw [Expr.fault?, Expr.fault?, h.isSome_resolve? name]

/-- No value of a variable has a part in how an evaluation fails. -/
theorem evaluate_eq_error_iff (h : c.SameNames d) {e : Expr Float}
    {cause : EvalError} :
    e.evaluate c = .error cause ↔ e.evaluate d = .error cause := by
  simp only [Expr.evaluate_eq_error_iff, ← Expr.head?_faults_eq_some_iff,
    Expr.faults_eq_filterMap, funext h.fault?_eq]

end Context.SameNames

section Calls

variable {e : Expr Float} {parameter : String} {cause : EvalError}

/-- What fails at one value of the parameter fails at every other. -/
theorem Expr.evaluate_bind_eq_error {x : Float}
    (h : e.evaluate (c.bind parameter x) = .error cause) (y : Float) :
    e.evaluate (c.bind parameter y) = .error cause :=
  (c.sameNames_bind parameter x y).evaluate_eq_error_iff.1 h

theorem Curve.call_eq_error {x : Float}
    (h : e.evaluate (c.bind parameter x) = .error cause) :
    Curve.call x ⟨e, parameter, c⟩ =
      (.error cause, ⟨e, parameter, c.bind parameter x⟩) := by
  rw [call_eq, h]

/-! ## Sampling -/

/-- The outcome of sampling a curve and the points that it is called at. -/
def Curve.sampled (curve : Curve) (points : List Float) :
    Except EvalError (List (Sample Float)) × List Float :=
  (samplesAt (recorded Curve.call) points [] curve).1

theorem Curve.sampled_of_error {first : Float}
    (h : e.evaluate (c.bind parameter first) = .error cause)
    (rest : List Float) :
    Curve.sampled ⟨e, parameter, c⟩ (first :: rest) =
      (.error cause, [first]) := by
  rw [sampled, samplesAt_recorded_of_error (call_eq_error h)]
  rfl

/-- Sampling fails in evaluation when there is room for the samples and it fails
at the first point. -/
theorem Expr.sample_eq_eval_error_iff {low high : Float} {count : Nat} :
    e.sample parameter low high count c = .error (.eval cause) ↔
      low.isFinite = true ∧ high.isFinite = true ∧ count ≤ Sample.limit ∧
        ∃ first rest, linspace low high count = first :: rest ∧
          e.evaluate (c.bind parameter first) = .error cause := by
  by_cases hrange : low.isFinite = true ∧ high.isFinite = true
  · obtain ⟨hlow, hhigh⟩ := hrange
    rcases Nat.lt_or_ge Sample.limit count with hlarge | hcount
    · rw [sample_eq_tooLarge hlow hhigh hlarge]
      constructor
      · intro h
        cases h
      · rintro ⟨-, -, hcount, -⟩
        exact absurd hlarge (Nat.not_lt.2 hcount)
    simp only [sample_eq_of_isFinite hlow hhigh hcount, mapError_eq_error_iff,
      CalcError.eval.injEq, exists_eq_right, hlow, hhigh, hcount, true_and]
    constructor
    · intro h
      obtain ⟨before, x, after, hpoints, -, hx⟩ := mapM_eq_error_iff.1 h
      have hevaluate := map_eq_error_iff.1 hx
      cases before with
      | nil => exact ⟨x, after, hpoints, hevaluate⟩
      | cons first before =>
          exact ⟨first, _, hpoints, evaluate_bind_eq_error hevaluate first⟩
    · rintro ⟨first, rest, hpoints, hfirst⟩
      rw [hpoints, List.mapM_cons, sampleAt, hfirst]
      rfl
  · rw [sample_eq_of_not_isFinite hrange]
    constructor
    · intro h
      cases h
    · rintro ⟨hlow, hhigh, -⟩
      exact absurd ⟨hlow, hhigh⟩ hrange

/-! ## Integration -/

/-- The outcome of integrating a curve and the points that it is called at. -/
def Curve.integrated (curve : Curve) (a b : Float) (n : Nat) :
    Except (IntegralError Float EvalError) Float × List Float :=
  (Simpson.integrate (recorded Curve.call) a b n [] curve).1

theorem Curve.integrated_of_error {a b : Float} {n : Nat}
    (hcheck : Simpson.check a b n = .ok ())
    (h : e.evaluate (c.bind parameter (Simpson.node a b n 0)) =
      .error cause) :
    Curve.integrated ⟨e, parameter, c⟩ a b n =
      (.error (.integrand cause), [Simpson.node a b n 0]) := by
  rw [integrated,
    Simpson.integrate_recorded_of_error hcheck (call_eq_error h)]
  rfl

/-- The induction is on the nodes that are left; a call leaves the curve in a
context that differs by a binding of the parameter. -/
theorem Simpson.exists_of_addNodes_eq_error {a b sum : Float} {n : Nat}
    {indices : List Nat}
    (h : (addNodes Curve.call a b n sum indices ⟨e, parameter, c⟩).1 =
      .error (.integrand cause)) :
    ∃ x, e.evaluate (c.bind parameter x) = .error cause := by
  induction indices generalizing c sum with
  | nil => cases h
  | cons i indices ih =>
      simp only [addNodes, bind, StateT.bind, Curve.call_eq] at h
      cases hvalue : e.evaluate (c.bind parameter (node a b n i)) with
      | error other =>
          rw [hvalue] at h
          cases h
          exact ⟨_, hvalue⟩
      | ok value =>
          rw [hvalue] at h
          dsimp only at h
          split at h
          · obtain ⟨x, hx⟩ := ih h
            rw [Context.bind_bind] at hx
            exact ⟨x, hx⟩
          · cases h

theorem Simpson.integrate_eq_integrand_error_iff {a b : Float} {n : Nat} :
    (integrate Curve.call a b n ⟨e, parameter, c⟩).1 =
        .error (.integrand cause) ↔
      check a b n = .ok () ∧
        e.evaluate (c.bind parameter (node a b n 0)) = .error cause := by
  cases hcheck : check a b n with
  | error range =>
      simp only [integrate, hcheck]
      constructor
      · intro h
        cases h
      · rintro ⟨h, -⟩
        cases h
  | ok =>
      rw [integrate_of_check hcheck]
      constructor
      · intro h
        obtain ⟨x, hx⟩ := exists_of_addNodes_eq_error (map_eq_error_iff.1 h)
        exact ⟨rfl, Expr.evaluate_bind_eq_error hx _⟩
      · rintro ⟨-, hfirst⟩
        simp only [List.range_succ_eq_map, addNodes, bind, StateT.bind,
          Curve.call_eq_error hfirst]
        rfl

theorem Calculator.ofIntegralError_eq_eval_iff
    {failure : IntegralError Float EvalError} :
    ofIntegralError failure = .eval cause ↔ failure = .integrand cause := by
  cases failure <;> simp [ofIntegralError]

/-- Integration fails in evaluation when it fails at the first node. -/
theorem Calculator.integralOf_eq_eval_error_iff {a b : Float} {n : Nat} :
    integralOf e parameter a b n c = .error (.eval cause) ↔
      Simpson.check a b n = .ok () ∧
        e.evaluate (c.bind parameter (Simpson.node a b n 0)) =
          .error cause := by
  have houtcome : integralOf e parameter a b n c =
      (Simpson.integrate Curve.call a b n ⟨e, parameter, c⟩).1.mapError
        ofIntegralError := rfl
  rw [← Simpson.integrate_eq_integrand_error_iff, houtcome,
    mapError_eq_error_iff]
  simp only [ofIntegralError_eq_eval_iff, exists_eq_right]

end Calls

/-- An evaluation fails when a node is at fault, with the error of the first
such node, whatever values the context gives to the names that it binds. So a
curve that is sampled or integrated fails in evaluation at its first point or
not at all, and after a failure it is not called again. A curve with more samples
than a list can hold is not evaluated. -/
theorem evaluation_fails_as_first_fault (e : Expr Float) (c : Context) :
    ((∃ cause, e.evaluate c = .error cause) ↔
      ∃ node ∈ e.nodes, ∃ cause, node.Fault c cause) ∧
    (∀ cause, e.evaluate c = .error cause ↔ e.FirstFault c cause) ∧
    (∀ d : Context, c.SameNames d →
      ∀ cause, e.evaluate c = .error cause ↔ e.evaluate d = .error cause) ∧
    (∀ parameter low high count cause,
      e.sample parameter low high count c = .error (.eval cause) ↔
        low.isFinite = true ∧ high.isFinite = true ∧ count ≤ Sample.limit ∧
          ∃ first rest, linspace low high count = first :: rest ∧
            e.evaluate (c.bind parameter first) = .error cause ∧
            Curve.sampled ⟨e, parameter, c⟩ (first :: rest) =
              (.error cause, [first])) ∧
    (∀ parameter a b n cause,
      Calculator.integralOf e parameter a b n c = .error (.eval cause) ↔
        Simpson.check a b n = .ok () ∧
          e.evaluate (c.bind parameter (Simpson.node a b n 0)) =
            .error cause ∧
          Curve.integrated ⟨e, parameter, c⟩ a b n =
            (.error (.integrand cause), [Simpson.node a b n 0])) := by
  refine ⟨?_, fun cause => Expr.evaluate_eq_error_iff,
    fun d hnames cause => hnames.evaluate_eq_error_iff, ?_, ?_⟩
  · simp only [Expr.evaluate_eq_error_iff, Expr.exists_firstFault_iff]
  · intro parameter low high count cause
    rw [Expr.sample_eq_eval_error_iff]
    constructor
    · rintro ⟨hlow, hhigh, hcount, first, rest, hpoints, hfirst⟩
      exact ⟨hlow, hhigh, hcount, first, rest, hpoints, hfirst,
        Curve.sampled_of_error hfirst rest⟩
    · rintro ⟨hlow, hhigh, hcount, first, rest, hpoints, hfirst, -⟩
      exact ⟨hlow, hhigh, hcount, first, rest, hpoints, hfirst⟩
  · intro parameter a b n cause
    rw [Calculator.integralOf_eq_eval_error_iff]
    constructor
    · rintro ⟨hcheck, hfirst⟩
      exact ⟨hcheck, hfirst, Curve.integrated_of_error hcheck hfirst⟩
    · rintro ⟨hcheck, hfirst, -⟩
      exact ⟨hcheck, hfirst⟩

/-- A wrong number of arguments is reported before what is wrong with the
arguments. -/
theorem evaluation_of_call_before_arguments :
    let e : Expr Float := .binary .sub
      (.call "sin" [.identifier "u", .call "sinh" [.identifier "x"]])
      (.identifier "v")
    let c : Context := ⟨[("x", 1)], .degrees⟩
    let d : Context := ⟨[("x", -3)], .radians⟩
    c.SameNames d ∧
      e.evaluate c = .error (.wrongArity "sin" 1 2) ∧
      e.evaluate d = .error (.wrongArity "sin" 1 2) := by
  intro e c d
  obtain ⟨-, hfirst, hnames, -, -⟩ := evaluation_fails_as_first_fault e c
  have hsame : c.SameNames d := by
    intro name
    simp only [Context.lookup?, c, d, List.lookup_cons]
    cases name == "x" <;> rfl
  have hevaluate : e.evaluate c = .error (.wrongArity "sin" 1 2) := by
    rw [hfirst]
    refine ⟨[e], _, _, rfl, ?_, .arity (f := .sin) rfl (by decide)⟩
    intro earlier hearlier
    rw [← Expr.fault?_eq_none_iff, List.mem_singleton.1 hearlier]
    rfl
  exact ⟨hsame, hevaluate, (hnames d hsame _).1 hevaluate⟩

end SciCalc
