import SciCalc.Proofs.Expression.Dependence

/-!
# Repeated calls of a curve

A curve keeps the context that its last call has left, and every call binds the
parameter in it anew. All that a call can change is the binding of the
parameter, which the next call does not see; so each call gives what the tree
has at its point, whatever has been called before.
-/

namespace SciCalc

/-- The contexts differ in the value of this variable at most. -/
structure Context.SameBut (name : String) (c d : Context) : Prop where
  mode : c.mode = d.mode
  lookup : ∀ other, other ≠ name → c.lookup? other = d.lookup? other

namespace Context.SameBut

variable {name : String} {c d : Context}

theorem refl (name : String) (c : Context) : SameBut name c c :=
  ⟨rfl, fun _ _ => rfl⟩

theorem bind_left (h : SameBut name c d) (x : Float) :
    SameBut name (c.bind name x) d where
  mode := h.mode
  lookup other hother := by
    rw [lookup?_bind_of_ne c x hother, h.lookup other hother]

theorem bind_right (h : SameBut name c d) (x : Float) :
    SameBut name c (d.bind name x) where
  mode := h.mode
  lookup other hother := by
    rw [lookup?_bind_of_ne d x hother, h.lookup other hother]

/-- With one value for the variable the contexts cannot be told apart. -/
theorem evaluate_eq (h : SameBut name c d)
    (hname : constant? name = none → c.lookup? name = d.lookup? name)
    (e : Expr Float) : e.evaluate c = e.evaluate d := by
  refine AgreeAt.evaluate_eq ⟨fun other hconstant _ => ?_, .inl h.mode⟩
  by_cases hother : other = name
  · subst hother
    exact hname hconstant
  · exact h.lookup other hother

theorem evaluate_bind (h : SameBut name c d) (e : Expr Float) (x : Float) :
    e.evaluate (c.bind name x) = e.evaluate (d.bind name x) := by
  refine ((h.bind_left x).bind_right x).evaluate_eq (fun _ => ?_) e
  rw [lookup?_bind_self, lookup?_bind_self]

end Context.SameBut

namespace Curve

variable {e : Expr Float} {parameter : String} {c d : Context}

theorem callAll_cons (x : Float) (xs : List Float) :
    callAll (x :: xs) ⟨e, parameter, d⟩ =
      (e.evaluate (d.bind parameter x) ::
          (callAll xs ⟨e, parameter, d.bind parameter x⟩).1,
        (callAll xs ⟨e, parameter, d.bind parameter x⟩).2) :=
  rfl

/-- The induction is on the points. A call leaves a context that differs from
the first one in the parameter at most, and this is all that the next one asks
of it. -/
theorem callAll_eq (h : d.SameBut parameter c) (xs : List Float) :
    (callAll xs ⟨e, parameter, d⟩).1 =
      xs.map fun x => e.evaluate (c.bind parameter x) := by
  induction xs generalizing d with
  | nil => rfl
  | cons x xs ih =>
      rw [callAll_cons, ih (h.bind_left x), h.evaluate_bind e x, List.map_cons]

end Curve

theorem Context.evaluate_bind_of_constant (c : Context) {name : String}
    (hname : (constant? name).isSome = true) (e : Expr Float) (x : Float) :
    e.evaluate (c.bind name x) = e.evaluate c := by
  refine ((SameBut.refl name c).bind_left x).evaluate_eq (fun hnone => ?_) e
  rw [hnone] at hname
  cases hname

/-- Every result of a curve is the value of its tree with the parameter rebound
to the point of that call. Earlier calls and an earlier value of the parameter
count for nothing. A constant as the parameter keeps its own value. -/
theorem curve_calls_are_independent (e : Expr Float) (parameter : String)
    (c d : Context) (h : d.SameBut parameter c) (xs : List Float) :
    (Curve.callAll xs ⟨e, parameter, d⟩).1 =
      (xs.map fun x => e.evaluate (c.bind parameter x)) ∧
    ((constant? parameter).isSome = true →
      (Curve.callAll xs ⟨e, parameter, d⟩).1 =
        xs.map fun _ => e.evaluate c) := by
  have hcalls := Curve.callAll_eq (e := e) h xs
  refine ⟨hcalls, fun hconstant => ?_⟩
  rw [hcalls]
  exact List.map_congr_left fun x _ =>
    c.evaluate_bind_of_constant hconstant e x

/-- A curve over a variable that has a value, and one over a constant. -/
theorem curve_calls_over_bound_names :
    let e : Expr Float := .binary .div (.identifier "pi") (.identifier "x")
    let c : Context := Context.empty .radians
    (c.bind "x" 7).SameBut "x" c ∧
      (Curve.callAll [0, 2] ⟨e, "x", c.bind "x" 7⟩).1 =
        [e.evaluate (c.bind "x" 0), e.evaluate (c.bind "x" 2)] ∧
      (c.bind "pi" 3).SameBut "pi" c ∧ (constant? "pi").isSome = true ∧
      (Curve.callAll [0, 2] ⟨e, "pi", c.bind "pi" 3⟩).1 =
        [.error (.unknownIdentifier "x"), .error (.unknownIdentifier "x")] := by
  intro e c
  have hvariable : (c.bind "x" 7).SameBut "x" c :=
    (Context.SameBut.refl "x" c).bind_left 7
  have hconstant : (c.bind "pi" 3).SameBut "pi" c :=
    (Context.SameBut.refl "pi" c).bind_left 3
  exact ⟨hvariable, (curve_calls_are_independent e "x" c _ hvariable [0, 2]).1,
    hconstant, rfl,
    (curve_calls_are_independent e "pi" c _ hconstant [0, 2]).2 rfl⟩

end SciCalc
