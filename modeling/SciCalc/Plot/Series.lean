/-!
# Sampled curves

A sample is a point, or a gap where the function has no finite value. A curve is
drawn as one line for every run of points without a gap.
-/

namespace SciCalc

inductive Sample (R : Type) where
  | point (x y : R)
  | gap (x : R)
  deriving DecidableEq, Repr

namespace Sample

variable {R : Type}

def abscissa : Sample R → R
  | point x _ => x
  | gap x => x

def isGap : Sample R → Bool
  | point _ _ => false
  | gap _ => true

/-- The coordinates of a point. -/
def point? : Sample R → Option (R × R)
  | point x y => some (x, y)
  | gap _ => none

end Sample

/-- The colors of a plot, in the order in which they are given out. -/
def palette : Vector String 10 :=
  #v["#1FB8CD", "#FFC185", "#B4413C", "#ECEBD5", "#5D878F", "#DB4545", "#D2BA4C",
     "#964325", "#944454", "#13343B"]

/-- The samples of one expression, and its place in the palette. -/
structure Series (R : Type) where
  expression : String
  colorIndex : Fin 10
  samples : List (Sample R)

namespace Series

variable {R : Type}

/-- The palette is used again from its start when it is exhausted. -/
def ofSamples (expression : String) (index : Nat) (samples : List (Sample R)) :
    Series R :=
  ⟨expression, Fin.ofNat 10 index, samples⟩

def color (s : Series R) : String :=
  palette[s.colorIndex]

def length (s : Series R) : Nat :=
  s.samples.length

def isEmpty (s : Series R) : Bool :=
  s.samples.isEmpty

def gapCount (s : Series R) : Nat :=
  s.samples.countP Sample.isGap

def points (s : Series R) : List (R × R) :=
  s.samples.filterMap Sample.point?

def abscissae (s : Series R) : List R :=
  s.samples.map Sample.abscissa

/-- A run that is complete; an empty one is none. The latest point stands in front. -/
def closeRun (run : List (R × R)) : List (List (R × R)) :=
  if run.isEmpty then [] else [run.reverse]

/-- The runs of points when `run` has been begun. -/
def runsFrom (run : List (R × R)) : List (Sample R) → List (List (R × R))
  | [] => closeRun run
  | .point x y :: rest => runsFrom ((x, y) :: run) rest
  | .gap _ :: rest => closeRun run ++ runsFrom [] rest

/-- The maximal runs of points, each of them one line of the curve. -/
def segments (s : Series R) : List (List (R × R)) :=
  runsFrom [] s.samples

end Series

end SciCalc
