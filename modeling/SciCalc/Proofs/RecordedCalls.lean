import SciCalc.Calculus.Simpson
import SciCalc.Plot.Sampling
import SciCalc.Proofs.Outcome

/-!
# Recorded calls

Sampling and integration call a function point by point, and the function may
have a memory. Wrapped so that its calls are recorded, the same routines show
at which points the function has been called, and in which order. Both of them
stop at a call that fails.
-/

namespace SciCalc

variable {R ε σ : Type}

/-- The function with a record of the points it is called at, the latest last. -/
def recorded {m : Type → Type} [Monad m] (f : R → m (Except ε R)) (x : R) :
    StateT (List R) m (Except ε R) := fun calls =>
  (fun outcome => (outcome, calls ++ [x])) <$> f x

variable [Scalar R] {f : R → StateM σ (Except ε R)}
variable {cause : ε} {s s' : σ}

theorem samplesAt_recorded_of_error {x : R}
    (h : f x s = (.error cause, s')) (rest calls : List R) :
    samplesAt (recorded f) (x :: rest) calls s =
      ((.error cause, calls ++ [x]), s') := by
  simp only [samplesAt, recorded, bind, StateT.bind, Functor.map, StateT.map, h]
  rfl

namespace Simpson

variable {a b : R} {n : ℕ}

/-- A call at this point fails, or its value is not finite. -/
inductive Stops (f : R → StateM σ (Except ε R)) (x : R) :
    σ → IntegralError R ε → σ → Prop
  | failed {cause : ε} {s s' : σ} (hcall : f x s = (.error cause, s')) :
      Stops f x s (.integrand cause) s'
  | notFinite {y : R} {s s' : σ} (hcall : f x s = (.ok y, s'))
      (hfinite : Scalar.isFinite y = false) :
      Stops f x s (.range (.integrand x)) s'

/-- One node of the rule. -/
theorem addNodes_recorded_cons (f : R → StateM σ (Except ε R)) (a b : R)
    (n : ℕ) (sum : R) (i : ℕ) (rest : List ℕ) (calls : List R) (s : σ) :
    addNodes (recorded f) a b n sum (i :: rest) calls s =
      match f (node a b n i) s with
      | (.error cause, s') =>
          ((.error (.integrand cause), calls ++ [node a b n i]), s')
      | (.ok y, s') =>
          if Scalar.isFinite y then
            addNodes (recorded f) a b n (sum + weight n i * y) rest
              (calls ++ [node a b n i]) s'
          else
            ((.error (.range (.integrand (node a b n i))),
              calls ++ [node a b n i]), s') := by
  simp only [addNodes, recorded, bind, StateT.bind, Functor.map, StateT.map,
    pure]
  rcases f (node a b n i) s with ⟨_ | y, s'⟩
  · rfl
  · dsimp only
    split <;> rfl

theorem addNodes_cons_of_stops {i : ℕ} {failure : IntegralError R ε}
    (h : Stops f (node a b n i) s failure s') (sum : R) (rest : List ℕ)
    (calls : List R) :
    addNodes (recorded f) a b n sum (i :: rest) calls s =
      ((.error failure, calls ++ [node a b n i]), s') := by
  rw [addNodes_recorded_cons]
  cases h with
  | failed hcall => rw [hcall]
  | notFinite hcall hfinite => rw [hcall]; simp [hfinite]

theorem integrate_recorded_of_addNodes
    {total : Except (IntegralError R ε) R} {calls calls' : List R}
    (hcheck : check a b n = .ok ())
    (h : addNodes (recorded f) a b n 0 (List.range (n + 1)) calls s =
      ((total, calls'), s')) :
    integrate (recorded f) a b n calls s =
      ((total.map fun sum => width a b n / Scalar.ofNat 3 * sum, calls'),
        s') := by
  rw [integrate_of_check hcheck]
  simp only [bind, StateT.bind, h]
  rfl

theorem integrate_recorded_of_error (hcheck : check a b n = .ok ())
    (h : f (node a b n 0) s = (.error cause, s')) (calls : List R) :
    integrate (recorded f) a b n calls s =
      ((.error (.integrand cause), calls ++ [node a b n 0]), s') := by
  have hfirst : addNodes (recorded f) a b n 0 (List.range (n + 1)) calls s =
      ((.error (.integrand cause), calls ++ [node a b n 0]), s') := by
    rw [List.range_succ_eq_map]
    exact addNodes_cons_of_stops (.failed h) 0 _ calls
  exact integrate_recorded_of_addNodes hcheck hfirst

end Simpson

end SciCalc
