import SciCalc.Plot.GridScalar
import SciCalc.RangeError

/-!
# Viewports

A rectangle of the plane and its image on a canvas, whose rows are counted from the
top. Grid lines lie at the multiples of one, two or five times a power of ten.
-/

namespace SciCalc

variable {R : Type}

/-- One, two, five or ten times the decade of a step. -/
def niceStep [GridScalar R] (step : R) : R :=
  let decade := GridScalar.decade step
  let fraction := step / decade
  let nice : R :=
    if Scalar.less fraction (Scalar.ratio 3 2) then 1
    else if Scalar.less fraction (Scalar.ofNat 3) then Scalar.ofNat 2
    else if Scalar.less fraction (Scalar.ofNat 7) then Scalar.ofNat 5
    else Scalar.ofNat 10
  nice * decade

/-- The whole numbers from `first` to `last`. -/
def intRange (first last : Int) : List Int :=
  (List.range (last + 1 - first).toNat).map fun (k : Nat) => first + (k : Int)

/-- The multiples of a step in a range; none when the step is not positive and
finite. -/
def gridLines [GridScalar R] (low high step : R) : List R :=
  if !Scalar.less 0 step || !Scalar.isFinite step then []
  else
    (intRange (GridScalar.ceil64 (low / step)) (GridScalar.floor64 (high / step))).map
      fun k => GridScalar.ofInt k * step

/-- The ends and the fifths of a range, without those that would be labelled zero. -/
def axisLabels [Scalar R] (low high : R) : List R :=
  let step := (high - low) / Scalar.ofNat 5
  let least : R := Scalar.ratio 1 1000
  ((List.range 6).map fun i => low + Scalar.ofNat i * step).filter fun v =>
    Scalar.less least (Scalar.abs v) || Scalar.same least (Scalar.abs v)

/-- The part of an axis that a plot shows. -/
structure Span (R : Type) where
  low : R
  high : R

namespace Span

/-- Both ends are finite and the lower one is less. -/
def isProper [Scalar R] (s : Span R) : Bool :=
  Scalar.isFinite s.low && Scalar.isFinite s.high && Scalar.less s.low s.high

def check [Scalar R] (axis : Axis) (s : Span R) : Except (RangeError R) Unit :=
  if s.isProper then .ok () else .error (.viewport axis s.low s.high)

/-- How far along the span a value lies: zero at the low end, one at the high end. -/
def portion [Scalar R] (s : Span R) (v : R) : R :=
  (v - s.low) / (s.high - s.low)

/-- Grid lines about a tenth of the span apart. -/
def grid [GridScalar R] (s : Span R) : List R :=
  gridLines s.low s.high (niceStep ((s.high - s.low) / Scalar.ofNat 10))

end Span

structure Viewport (R : Type) where
  x : Span R
  y : Span R

namespace Viewport

/-- Ten units around the origin in all directions. -/
def standard [Scalar R] : Viewport R :=
  ⟨⟨-Scalar.ofNat 10, Scalar.ofNat 10⟩, ⟨-Scalar.ofNat 10, Scalar.ofNat 10⟩⟩

/-- The viewport of two proper spans; the `x` axis is checked first. -/
def ofSpans [Scalar R] (x y : Span R) : Except (RangeError R) (Viewport R) := do
  x.check .x
  y.check .y
  return ⟨x, y⟩

/-- The column of a point on a canvas of the given width. -/
def mapX [Scalar R] (v : Viewport R) (x width : R) : R :=
  v.x.portion x * width

/-- The row of a point on a canvas of the given height. -/
def mapY [Scalar R] (v : Viewport R) (y height : R) : R :=
  height - v.y.portion y * height

def xGrid [GridScalar R] (v : Viewport R) : List R :=
  v.x.grid

def yGrid [GridScalar R] (v : Viewport R) : List R :=
  v.y.grid

end Viewport

end SciCalc
