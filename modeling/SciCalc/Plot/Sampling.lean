import SciCalc.CalcError
import SciCalc.Plot.Linspace
import SciCalc.Plot.Series

/-!
# Sampling

A function is evaluated at evenly spaced points, in order. Where its value is not
finite there is a gap; where its evaluation fails the sampling fails. The list of
the samples is made before the first evaluation, so that a number of samples that
no list can hold is the end of the program whatever the function is.
-/

namespace SciCalc

/-- A point, or a gap when the value is not finite. -/
def Sample.ofValue {R : Type} [Scalar R] (x y : R) : Sample R :=
  if Scalar.isFinite y then .point x y else .gap x

/-- The most samples a list can hold: `2 ^ 63 - 1` bytes of memory, and a kind and
two coordinates of eight bytes each for every sample. -/
def Sample.limit : Nat := (Nat.pow 2 63 - 1) / 24

/-- The samples of a function at given points. The function may have a memory; it
is not called again once it has failed. -/
def samplesAt {R ε : Type} [Scalar R] {m : Type → Type} [Monad m]
    (f : R → m (Except ε R)) : List R → m (Except ε (List (Sample R)))
  | [] => return .ok []
  | x :: xs => do
    match ← f x with
    | .error cause => return .error cause
    | .ok y =>
      let rest ← samplesAt f xs
      return rest.map fun samples => Sample.ofValue x y :: samples

/-- The samples of an expression over a range, as a function of one of its variables. -/
def Expr.sample (body : Expr Float) (parameter : String) (low high : Float)
    (count : Nat) (c : Context) : Except CalcError (List (Sample Float)) :=
  if !low.isFinite || !high.isFinite then .error (.range (.sampling low high))
  else if Sample.limit < count then .error .tooLarge
  else
    let (outcome, _) :=
      samplesAt Curve.call (linspace low high count) ⟨body, parameter, c⟩
    outcome.mapError .eval

end SciCalc
