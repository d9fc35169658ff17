import SciCalc.Scalar

/-!
# Cells of a fixed shape

A rectangle of cells whose shape is part of its type. Every operation is described
by what it puts into each cell, so an equation between rectangles is an equation
between cells.
-/

namespace SciCalc

/-- `m` rows of `n` cells each. -/
structure Cells (R : Type) (m n : Nat) where
  rows : Vector (Vector R n) m

namespace Cells

variable {R : Type} {m n : Nat}

def ofFn (f : Fin m → Fin n → R) : Cells R m n :=
  ⟨Vector.ofFn fun i => Vector.ofFn (f i)⟩

def row (c : Cells R m n) (i : Fin m) : Vector R n :=
  c.rows[i]

def entry (c : Cells R m n) (i : Fin m) (j : Fin n) : R :=
  (c.row i)[j]

@[simp]
theorem entry_ofFn (f : Fin m → Fin n → R) (i : Fin m) (j : Fin n) :
    (ofFn f).entry i j = f i j := by
  simp [ofFn, entry, row]

theorem ext {a b : Cells R m n} (hentry : ∀ i j, a.entry i j = b.entry i j) :
    a = b := by
  rcases a with ⟨a⟩
  rcases b with ⟨b⟩
  congr 1
  apply Vector.ext
  intro i hi
  apply Vector.ext
  intro j hj
  exact hentry ⟨i, hi⟩ ⟨j, hj⟩

/-- The cells row after row. -/
def toList (c : Cells R m n) : List R :=
  (c.rows.toList.map Vector.toList).flatten

/-- The rows as lists. -/
def toRows (c : Cells R m n) : List (List R) :=
  c.rows.toList.map Vector.toList

def transpose (c : Cells R m n) : Cells R n m :=
  ofFn fun j i => c.entry i j

@[simp]
theorem entry_transpose (c : Cells R m n) (i : Fin m) (j : Fin n) :
    c.transpose.entry j i = c.entry i j := by
  simp [transpose]

def swapRows (c : Cells R m n) (p q : Fin m) : Cells R m n :=
  ⟨Vector.ofFn fun i => if i = p then c.row q else if i = q then c.row p else c.row i⟩

theorem entry_swapRows (c : Cells R m n) (p q i : Fin m) (j : Fin n) :
    (c.swapRows p q).entry i j =
      if i = p then c.entry q j else if i = q then c.entry p j else c.entry i j := by
  simp only [swapRows, entry, row, Vector.getElem_ofFn, Fin.getElem_fin, Fin.eta]
  split
  · rfl
  · split <;> rfl

/-- The index that place `i` has among `n + 1` when place `gap` is left out. -/
def skip (gap : Fin (n + 1)) (i : Fin n) : Fin (n + 1) :=
  if i.val < gap.val then i.castSucc else i.succ

/-- The cells without one row and one column. -/
def minor (c : Cells R (m + 1) (n + 1)) (row : Fin (m + 1)) (col : Fin (n + 1)) :
    Cells R m n :=
  ofFn fun i j => c.entry (skip row i) (skip col j)

@[simp]
theorem entry_minor (c : Cells R (m + 1) (n + 1)) (row : Fin (m + 1))
    (col : Fin (n + 1)) (i : Fin m) (j : Fin n) :
    (c.minor row col).entry i j = c.entry (skip row i) (skip col j) := by
  simp [minor]

variable [Scalar R]

def identity : Cells R n n :=
  ofFn fun i j => if i = j then 1 else 0

def add (a b : Cells R m n) : Cells R m n :=
  ofFn fun i j => a.entry i j + b.entry i j

def sub (a b : Cells R m n) : Cells R m n :=
  ofFn fun i j => a.entry i j - b.entry i j

/-- The product of rows and columns; every sum starts from zero and runs from the
left. -/
def mul {k : Nat} (a : Cells R m k) (b : Cells R k n) : Cells R m n :=
  ofFn fun i j => Scalar.sum k fun l => a.entry i l * b.entry l j

end Cells

end SciCalc
