import SciCalc.Expression.Elementary

/-!
# Evaluation contexts

A context binds variables to values and fixes the angle mode. Nothing else
influences an evaluation.
-/

namespace SciCalc

structure Context where
  bindings : List (String × Float)
  mode : AngleMode
  deriving Inhabited

namespace Context

def empty (mode : AngleMode) : Context :=
  ⟨[], mode⟩

/-- The value bound to a name. -/
def lookup? (c : Context) (name : String) : Option Float :=
  c.bindings.lookup name

def unbind (c : Context) (name : String) : Context :=
  { c with bindings := c.bindings.filter fun b => b.1 != name }

/-- Binds a name; an earlier value of the same name is forgotten. -/
def bind (c : Context) (name : String) (value : Float) : Context :=
  { c with bindings := (name, value) :: (c.unbind name).bindings }

def toggle (c : Context) : Context :=
  { c with mode := c.mode.toggled }

/-- Constants come first: a binding of `pi` or `e` is never seen. -/
def resolve? (c : Context) (name : String) : Option Float :=
  match constant? name with
  | some value => some value
  | none => c.lookup? name

@[simp]
theorem lookup?_bind_self (c : Context) (name : String) (value : Float) :
    (c.bind name value).lookup? name = some value := by
  simp [bind, lookup?]

theorem lookup?_unbind_of_ne (c : Context) {name other : String} (hne : other ≠ name) :
    (c.unbind name).lookup? other = c.lookup? other := by
  simp only [lookup?, unbind]
  induction c.bindings with
  | nil => rfl
  | cons b bs ih =>
    by_cases hb : b.1 = name
    · rw [List.filter_cons_of_neg (by simpa using hb), ih, List.lookup_cons]
      rw [show (other == b.1) = false by simpa [hb] using hne]
    · rw [List.filter_cons_of_pos (by simpa using hb)]
      rw [List.lookup_cons, List.lookup_cons, ih]

theorem lookup?_bind_of_ne (c : Context) {name other : String} (value : Float)
    (hne : other ≠ name) :
    (c.bind name value).lookup? other = c.lookup? other := by
  rw [← c.lookup?_unbind_of_ne hne, bind, lookup?, List.lookup_cons]
  rw [show (other == name) = false by simpa using hne]
  rfl

end Context

end SciCalc
