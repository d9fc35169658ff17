import SciCalc.Proofs.Expression.FirstFault
import SciCalc.Proofs.Expression.UnboundNames

/-!
# Calls at the nodes

The rule calls its integrand at the nodes in order, up to the first one where
the call fails or has no finite value. The calls are followed as they happen:
a row of calls that return, and then one that stops the rule or the end of the
row. Arguments that the rule refuses are refused before any call.
-/

namespace SciCalc.Simpson

open Outcome

variable {R ε σ : Type} [Scalar R] {f : R → StateM σ (Except ε R)}
variable {a b : R} {n : ℕ} {s s' : σ}

/-! ## Calls -/

/-- Called at these points in order, the function has these finite values, and
it is left in the second state. -/
inductive Returns (f : R → StateM σ (Except ε R)) :
    σ → List R → List R → σ → Prop
  | nil {s : σ} : Returns f s [] [] s
  | cons {x y : R} {xs ys : List R} {s s₁ s' : σ}
      (hcall : f x s = (.ok y, s₁)) (hfinite : Scalar.isFinite y = true)
      (hrest : Returns f s₁ xs ys s') : Returns f s (x :: xs) (y :: ys) s'

/-- All calls return, or there is a first one that stops. -/
theorem returns_or_stops (f : R → StateM σ (Except ε R)) (xs : List R)
    (s : σ) :
    (∃ ys s', Returns f s xs ys s') ∨
      ∃ before x after ys s₁ failure s', xs = before ++ x :: after ∧
        Returns f s before ys s₁ ∧ Stops f x s₁ failure s' := by
  induction xs generalizing s with
  | nil => exact .inl ⟨[], s, .nil⟩
  | cons x xs ih =>
      obtain ⟨outcome, s₁, hcall⟩ : ∃ outcome s₁, f x s = (outcome, s₁) :=
        ⟨_, _, rfl⟩
      cases outcome with
      | error cause =>
          exact .inr ⟨[], x, xs, [], s, _, s₁, rfl, .nil, .failed hcall⟩
      | ok y =>
          cases hfinite : Scalar.isFinite y with
          | false =>
              exact .inr ⟨[], x, xs, [], s, _, s₁, rfl, .nil,
                .notFinite hcall hfinite⟩
          | true =>
              rcases ih s₁ with ⟨ys, s', hreturns⟩ |
                ⟨before, x', after, ys, s₂, failure, s', rfl, hbefore, hstops⟩
              · exact .inl ⟨y :: ys, s', .cons hcall hfinite hreturns⟩
              · exact .inr ⟨x :: before, x', after, y :: ys, s₂, failure, s',
                  rfl, .cons hcall hfinite hbefore, hstops⟩

/-! ## Runs of the rule -/

/-- The products of weights and values, added to a sum from the left. -/
def addProducts (sum : R) (weights values : List R) : R :=
  (List.zipWith (· * ·) weights values).foldl (· + ·) sum

/-- The induction is on the calls that return; every one of them is one node of
the rule. -/
theorem addNodes_append {before : List ℕ} {values : List R}
    (h : Returns f s (before.map (node a b n)) values s') (sum : R)
    (after : List ℕ) (calls : List R) :
    addNodes (recorded f) a b n sum (before ++ after) calls s =
      addNodes (recorded f) a b n
        (addProducts sum (before.map (weight n)) values) after
        (calls ++ before.map (node a b n)) s' := by
  induction before generalizing s values sum calls with
  | nil =>
      cases h
      simp only [List.map_nil, List.append_nil]
      rfl
  | cons i before ih =>
      rw [List.map_cons] at h
      cases h with
      | cons hcall hfinite hrest =>
          rw [List.cons_append, addNodes_recorded_cons, hcall]
          dsimp only
          rw [if_pos hfinite, ih hrest, List.append_assoc]
          rfl

theorem integrate_recorded_of_refused {cause : RangeError R}
    (hcheck : check a b n = .error cause) (calls : List R) (s : σ) :
    integrate (recorded f) a b n calls s =
      ((.error (.range cause), calls), s) := by
  rw [integrate, hcheck]
  rfl

/-! ## Nodes and weights -/

/-- Nodes `0` to `n - 1` at equal distances, and the second limit. -/
def nodes (a b : R) (n : ℕ) : List R :=
  (List.range n).map (fun i =>
    a + Scalar.ofNat i * ((b - a) / Scalar.ofNat n)) ++ [b]

/-- `1` at both ends, and `4` and `2` in turns between them. -/
def weights (R : Type) [Scalar R] (n : ℕ) : List R :=
  1 :: (List.range' 1 (n - 1)).map (fun i =>
    if i % 2 = 1 then Scalar.ofNat 4 else Scalar.ofNat 2) ++ [1]

theorem length_nodes (a b : R) (n : ℕ) : (nodes a b n).length = n + 1 := by
  simp [nodes]

theorem map_node_range (a b : R) (n : ℕ) :
    (List.range (n + 1)).map (node a b n) = nodes a b n := by
  have hinner : ∀ i ∈ List.range n, node a b n i =
      a + Scalar.ofNat i * ((b - a) / Scalar.ofNat n) := by
    intro i hi
    exact if_neg (List.mem_range.1 hi).ne
  rw [List.range_succ, List.map_append, List.map_congr_left hinner,
    List.map_singleton, node, if_pos rfl]
  rfl

theorem map_weight_range (hn : n ≠ 0) :
    (List.range (n + 1)).map (weight n) = weights R n := by
  obtain ⟨m, rfl⟩ := Nat.exists_eq_succ_of_ne_zero hn
  have hinner : ∀ i ∈ List.range' 1 m, weight (R := R) (m + 1) i =
      if i % 2 = 1 then Scalar.ofNat 4 else Scalar.ofNat 2 := by
    intro i hi
    rw [List.mem_range'_1] at hi
    exact if_neg (by omega)
  rw [List.range_succ, List.range_eq_range', List.range'_succ,
    List.map_append, List.map_cons, List.map_congr_left hinner,
    List.map_singleton, weight, weight, if_pos (.inl rfl), if_pos (.inr rfl)]
  rfl

example : weights ℚ 4 = [1, 4, 2, 4, 1] := rfl

/-! ## The whole rule -/

/-- How an integration goes that is not refused: its outcome, the points that
it calls the function at, and the state that it leaves. -/
inductive Integrates (f : R → StateM σ (Except ε R)) (a b : R) (n : ℕ)
    (s : σ) : Except (IntegralError R ε) R → List R → σ → Prop
  | value {values : List R} {s' : σ}
      (hvalues : Returns f s (nodes a b n) values s') :
      Integrates f a b n s
        (.ok ((b - a) / Scalar.ofNat n / Scalar.ofNat 3 *
          addProducts 0 (weights R n) values))
        (nodes a b n) s'
  | stopped {before after values : List R} {x : R} {s₁ s' : σ}
      {failure : IntegralError R ε}
      (hnodes : nodes a b n = before ++ x :: after)
      (hbefore : Returns f s before values s₁)
      (hstops : Stops f x s₁ failure s') :
      Integrates f a b n s (.error failure) (before ++ [x]) s'

theorem exists_integrates (f : R → StateM σ (Except ε R)) (a b : R) (n : ℕ)
    (s : σ) : ∃ outcome calls s', Integrates f a b n s outcome calls s' := by
  rcases returns_or_stops f (nodes a b n) s with ⟨values, s', hvalues⟩ |
    ⟨before, x, after, values, s₁, failure, s', hnodes, hbefore, hstops⟩
  · exact ⟨_, _, s', .value hvalues⟩
  · exact ⟨_, _, s', .stopped hnodes hbefore hstops⟩

section Accepted

variable (hcheck : check a b n = .ok ()) (hn : n ≠ 0)
variable {outcome : Except (IntegralError R ε) R} {calls : List R}

include hcheck hn

theorem Integrates.integrate_eq (h : Integrates f a b n s outcome calls s') :
    integrate (recorded f) a b n [] s = ((outcome, calls), s') := by
  cases h with
  | @value values s' hvalues =>
      rw [← map_node_range] at hvalues
      have hrun := addNodes_append hvalues 0 [] []
      rw [List.append_nil, List.nil_append, map_node_range,
        map_weight_range hn] at hrun
      exact integrate_recorded_of_addNodes hcheck hrun
  | @stopped before after values x s₁ s' failure hnodes hbefore hstops =>
      rw [← map_node_range] at hnodes
      obtain ⟨front, behind, hindices, rfl, hbehind⟩ :=
        List.map_eq_append_iff.1 hnodes
      obtain ⟨i, rest, rfl, rfl, -⟩ := List.map_eq_cons_iff.1 hbehind
      have hrun := addNodes_append hbefore 0 (i :: rest) []
      rw [← hindices, addNodes_cons_of_stops hstops, List.nil_append] at hrun
      exact integrate_recorded_of_addNodes hcheck hrun

theorem integrate_eq_iff :
    integrate (recorded f) a b n [] s = ((outcome, calls), s') ↔
      Integrates f a b n s outcome calls s' := by
  refine ⟨fun h => ?_, Integrates.integrate_eq hcheck hn⟩
  obtain ⟨outcome', calls', s₁, h'⟩ := exists_integrates f a b n s
  rw [h'.integrate_eq hcheck hn] at h
  cases h
  exact h'

end Accepted

/-! ## Recording changes nothing -/

theorem addNodes_eq_recorded (f : R → StateM σ (Except ε R)) (a b : R) (n : ℕ)
    (sum : R) (indices : List ℕ) (calls : List R) (s : σ) :
    addNodes f a b n sum indices s =
      ((addNodes (recorded f) a b n sum indices calls s).1.1,
        (addNodes (recorded f) a b n sum indices calls s).2) := by
  induction indices generalizing sum calls s with
  | nil => rfl
  | cons i rest ih =>
      rw [addNodes_recorded_cons]
      simp only [addNodes, bind, StateT.bind]
      rcases f (node a b n i) s with ⟨_ | y, s'⟩
      · rfl
      · dsimp only
        split
        · exact ih _ _ s'
        · rfl

theorem integrate_eq_recorded (f : R → StateM σ (Except ε R)) (a b : R)
    (n : ℕ) (s : σ) :
    integrate f a b n s =
      ((integrate (recorded f) a b n [] s).1.1,
        (integrate (recorded f) a b n [] s).2) := by
  cases hcheck : check a b n with
  | error cause =>
      rw [integrate_recorded_of_refused hcheck, integrate, hcheck]
      rfl
  | ok =>
      rw [integrate_of_check hcheck, integrate_of_check hcheck]
      simp only [bind, StateT.bind]
      rw [addNodes_eq_recorded f a b n 0 _ [] s]
      rfl

/-! ## Refused arguments -/

theorem check_of_not_isFinite
    (h : ¬(Scalar.isFinite a = true ∧ Scalar.isFinite b = true)) (n : ℕ) :
    check a b n = .error (.limits a b) := by
  refine if_pos ?_
  rw [← Bool.not_and, Bool.not_eq_true', ← Bool.not_eq_true, Bool.and_eq_true]
  exact h

theorem check_of_isFinite (ha : Scalar.isFinite a = true)
    (hb : Scalar.isFinite b = true) (n : ℕ) :
    check a b n =
      if n = 0 ∨ n % 2 ≠ 0 then .error (.subintervals n) else .ok () :=
  if_neg (by simp [ha, hb])

theorem check_of_odd (ha : Scalar.isFinite a = true)
    (hb : Scalar.isFinite b = true) (hn : n = 0 ∨ Odd n) :
    check a b n = .error (.subintervals n) := by
  rw [check_of_isFinite ha hb, if_pos]
  exact hn.imp_right fun hodd => by simp [Nat.odd_iff.1 hodd]

theorem check_of_even (ha : Scalar.isFinite a = true)
    (hb : Scalar.isFinite b = true) (hn : n ≠ 0) (heven : Even n) :
    check a b n = .ok () := by
  rw [check_of_isFinite ha hb, if_neg]
  rw [not_or, not_not]
  exact ⟨hn, Nat.even_iff.1 heven⟩

end SciCalc.Simpson

namespace SciCalc

open Simpson

/-! ## Names without a value -/

section Unbound

variable {text parameter : String} {e : Expr Float} {c : Context}

/-- A name that has no value has none at any value of the parameter, and the
first such name of the text is reported. -/
theorem evaluate_bind_of_unbound (hparse : parse text = .ok e)
    (hunbound : ∃ name ∈ e.freeVariables,
      name ≠ parameter ∧ c.lookup? name = none) (x : Float) :
    ∃ name ∈ e.freeVariables, name ≠ parameter ∧ c.lookup? name = none ∧
      e.evaluate (c.bind parameter x) = .error (.unknownIdentifier name) := by
  have hbind : ∀ name, (c.bind parameter x).lookup? name = none ↔
      name ≠ parameter ∧ c.lookup? name = none := by
    intro name
    by_cases hname : name = parameter
    · simp [hname]
    · simp [hname, c.lookup?_bind_of_ne x hname]
  simp only [← hbind, ← and_assoc] at hunbound ⊢
  cases hfind : (Text.words text.toList).find?
      (c.bind parameter x).lacks with
  | none =>
      obtain ⟨name, hname, hnone⟩ := hunbound
      obtain ⟨value, hvalue⟩ :=
        (find?_lacks_eq_none_iff hparse _).1 hfind name hname
      rw [hnone] at hvalue
      cases hvalue
  | some name =>
      have hlacks := List.find?_some hfind
      rw [Context.lacks, Bool.and_eq_true, Option.isNone_iff_eq_none] at hlacks
      refine ⟨name, ⟨?_, hlacks.1⟩,
        evaluate_eq_error_of_find? hparse _ hfind⟩
      exact (mem_freeVariables_of_parseChars hparse).2
        ⟨List.mem_of_find?_eq_some hfind, hlacks.2⟩

/-- An integration stops at its first node when a name has no value. -/
theorem integralOf_of_unbound {a b : Float} {n : ℕ}
    (hcheck : check a b n = .ok ()) (hparse : parse text = .ok e)
    (hunbound : ∃ name ∈ e.freeVariables,
      name ≠ parameter ∧ c.lookup? name = none) :
    ∃ name ∈ e.freeVariables, name ≠ parameter ∧ c.lookup? name = none ∧
      Calculator.integralOf e parameter a b n c =
        .error (.eval (.unknownIdentifier name)) ∧
      Curve.integrated ⟨e, parameter, c⟩ a b n =
        (.error (.integrand (.unknownIdentifier name)), [node a b n 0]) := by
  obtain ⟨name, hmem, hne, hnone, herror⟩ :=
    evaluate_bind_of_unbound hparse hunbound (node a b n 0)
  exact ⟨name, hmem, hne, hnone,
    Calculator.integralOf_eq_eval_error_iff.2 ⟨hcheck, herror⟩,
    Curve.integrated_of_error hcheck herror⟩

end Unbound

/-- The rule refuses limits that are not finite, then a number of subintervals
that is zero or odd, without a call. Otherwise it calls the integrand at the
nodes in order, up to the first one where the call fails or has no finite
value. So the integral of a text reports a name without a value, after one
call. -/
theorem integration_stops_at_first_bad_node :
    (∀ (R ε σ : Type) [Scalar R] (f : R → StateM σ (Except ε R)) (a b : R)
        (n : ℕ) (s : σ),
      integrate f a b n s =
          ((integrate (recorded f) a b n [] s).1.1,
            (integrate (recorded f) a b n [] s).2) ∧
        (nodes a b n).length = n + 1 ∧
        (¬(Scalar.isFinite a = true ∧ Scalar.isFinite b = true) →
          integrate (recorded f) a b n [] s =
            ((.error (.range (.limits a b)), []), s)) ∧
        (Scalar.isFinite a = true → Scalar.isFinite b = true →
          (n = 0 ∨ Odd n →
            integrate (recorded f) a b n [] s =
              ((.error (.range (.subintervals n)), []), s)) ∧
          (n ≠ 0 → Even n → ∀ outcome calls s',
            integrate (recorded f) a b n [] s = ((outcome, calls), s') ↔
              Integrates f a b n s outcome calls s'))) ∧
    ∀ (text parameter : String) (e : Expr Float) (c : Context) (a b : Float),
      parse text = .ok e → a.isFinite = true → b.isFinite = true →
      (∃ name ∈ e.freeVariables,
        name ≠ parameter ∧ c.lookup? name = none) →
      ∃ name ∈ e.freeVariables, name ≠ parameter ∧ c.lookup? name = none ∧
        Calculator.integralOf e parameter a b standardCount c =
          .error (.eval (.unknownIdentifier name)) ∧
        Curve.integrated ⟨e, parameter, c⟩ a b standardCount =
          (.error (.integrand (.unknownIdentifier name)),
            (nodes a b standardCount).take 1) := by
  constructor
  · intro R ε σ _ f a b n s
    refine ⟨integrate_eq_recorded f a b n s, length_nodes a b n, ?_, ?_⟩
    · intro hlimits
      exact integrate_recorded_of_refused (check_of_not_isFinite hlimits n) [] s
    · intro ha hb
      constructor
      · intro hn
        exact integrate_recorded_of_refused (check_of_odd ha hb hn) [] s
      · intro hn heven outcome calls s'
        exact integrate_eq_iff (check_of_even ha hb hn heven) hn
  · intro text parameter e c a b hparse ha hb hunbound
    have hcheck : check a b standardCount = .ok () :=
      check_of_even ha hb (by decide) (by decide)
    have hfirst : (nodes a b standardCount).take 1 =
        [node a b standardCount 0] := by
      rw [← map_node_range, List.range_succ_eq_map]
      rfl
    rw [hfirst]
    exact integralOf_of_unbound hcheck hparse hunbound

/-- An integrand that counts its calls and fails at the third one. -/
def failsAtThird : ℚ → StateM ℕ (Except Unit ℚ) := fun x calls =>
  (if calls = 2 then .error () else .ok x, calls + 1)

/-- Two calls return and the third one stops the rule; a name without a value
stops it at once. -/
theorem integration_stops_at_third_node :
    let e : Expr Float := .binary .mul (.identifier "k") (.identifier "x")
    integrate (recorded failsAtThird) 0 1 4 [] 0 =
        ((.error (.integrand ()), [0, 1 / 4, 1 / 2]), 3) ∧
      parse "k*x" = .ok e ∧
      Calculator.integralOf e "x" 0 1 standardCount (.empty .radians) =
        .error (.eval (.unknownIdentifier "k")) := by
  intro e
  obtain ⟨hrule, hunbound⟩ := integration_stops_at_first_bad_node
  obtain ⟨-, -, -, haccepted⟩ := hrule ℚ Unit ℕ failsAtThird 0 1 4 0
  have hparse : parse "k*x" = .ok e := by cbv
  have hfirst : Calculator.integralOf e "x" 0 1 standardCount
      (.empty .radians) = .error (.eval (.unknownIdentifier "k")) := by
    have ha : Float.isFinite 0 = true := by decide +kernel
    have hb : Float.isFinite 1 = true := by decide +kernel
    obtain ⟨name, hmem, hne, -, hintegral, -⟩ :=
      hunbound "k*x" "x" e (.empty .radians) 0 1 hparse ha hb
        ⟨"k", Expr.mem_freeVariables.2 (by decide), by decide, rfl⟩
    have hoccurs : name ∈ ["k", "x"] := Expr.mem_freeVariables.1 hmem
    obtain rfl : name = "k" := by simpa [hne] using hoccurs
    exact hintegral
  have hnodes : nodes (0 : ℚ) 1 4 = [0, 1 / 4] ++ 1 / 2 :: [3 / 4, 1] := by
    decide +kernel
  have hbefore : Returns failsAtThird 0 [0, 1 / 4] [0, 1 / 4] 2 :=
    .cons rfl rfl (.cons rfl rfl .nil)
  have hstops : Stops failsAtThird (1 / 2) 2 (.integrand ()) 3 := .failed rfl
  exact ⟨((haccepted rfl rfl).2 (by decide) (by decide) _ _ _).2
    (.stopped hnodes hbefore hstops), hparse, hfirst⟩

end SciCalc
