import SciCalc.RangeError
import SciCalc.Scalar

/-!
# Simpson's rule

The composite rule over an even number of subintervals: the values at the nodes are
weighted `1, 4, 2, 4, …, 4, 1`, added from the left and multiplied by a third of the
width of a subinterval. The integrand may fail and may have a memory; it is called
once at each node, in order, up to the first node where it fails or has no finite
value.
-/

namespace SciCalc

/-- An integration fails with its integrand or for reasons of its own. -/
inductive IntegralError (R ε : Type) where
  | integrand (cause : ε)
  | range (cause : RangeError R)

namespace Simpson

variable {R ε : Type} [Scalar R] {m : Type → Type} [Monad m]

/-- The number of subintervals the calculator uses. -/
def standardCount : Nat := 1000

/-- The width of one of `n` subintervals. -/
def width (a b : R) (n : Nat) : R :=
  (b - a) / Scalar.ofNat n

/-- Node `i` of `n + 1` nodes. The last one is the limit itself, free of rounding. -/
def node (a b : R) (n i : Nat) : R :=
  if i = n then b else a + Scalar.ofNat i * width a b n

def weight (n i : Nat) : R :=
  if i = 0 ∨ i = n then 1
  else if i % 2 = 1 then Scalar.ofNat 4
  else Scalar.ofNat 2

/-- Adds the weighted values at the given nodes to a sum. -/
def addNodes (f : R → m (Except ε R)) (a b : R) (n : Nat) (sum : R) :
    List Nat → m (Except (IntegralError R ε) R)
  | [] => return .ok sum
  | i :: rest => do
    let x := node a b n i
    match ← f x with
    | .error cause => return .error (.integrand cause)
    | .ok y =>
      if Scalar.isFinite y then addNodes f a b n (sum + weight n i * y) rest
      else return .error (.range (.integrand x))

/-- The limits are checked first, then the number of subintervals. -/
def check (a b : R) (n : Nat) : Except (RangeError R) Unit :=
  if !Scalar.isFinite a || !Scalar.isFinite b then .error (.limits a b)
  else if n = 0 ∨ n % 2 ≠ 0 then .error (.subintervals n)
  else .ok ()

/-- The integral of `f` from `a` to `b` over `n` subintervals. -/
def integrate (f : R → m (Except ε R)) (a b : R) (n : Nat) :
    m (Except (IntegralError R ε) R) :=
  match check a b n with
  | .error cause => return .error (.range cause)
  | .ok () => do
    let total ← addNodes f a b n 0 (List.range (n + 1))
    return total.map fun sum => width a b n / Scalar.ofNat 3 * sum

theorem integrate_of_check {f : R → m (Except ε R)} {a b : R} {n : Nat}
    (h : check a b n = .ok ()) :
    integrate f a b n = do
      let total ← addNodes f a b n 0 (List.range (n + 1))
      return total.map fun sum => width a b n / Scalar.ofNat 3 * sum := by
  rw [integrate, h]

end Simpson

end SciCalc
