import SciCalc.Expression.Parser
import SciCalc.Plot.Sampling

/-!
# Plot requests

Several expressions to be sampled over one range. A blank one is passed over but
keeps its color; the first one that fails makes the whole request fail.
-/

namespace SciCalc

structure PlotRequest where
  expressions : List String
  low : Float
  high : Float
  count : Nat
  mode : AngleMode
  variableName : String

namespace PlotRequest

/-- The most expressions one plot may have. -/
def limit : Nat := 5

/-- One sample for every column of a canvas of usual size. -/
def standardCount : Nat := 800

/-- The series of an expression in the given place; none for a blank one. -/
def series (r : PlotRequest) (index : Nat) (text : String) :
    Except CalcError (Option (Series Float)) :=
  let body := Text.trim text.toList
  if body.isEmpty then .ok none
  else do
    let e ← (parseChars body).mapError CalcError.parse
    let samples ← e.sample r.variableName r.low r.high r.count (Context.empty r.mode)
    return some (Series.ofSamples (String.ofList body) index samples)

/-- The series of the expressions that are not blank, in order. -/
def seriesFrom (r : PlotRequest) (index : Nat) :
    List String → Except CalcError (List (Series Float))
  | [] => .ok []
  | text :: rest => do
    let first ← r.series index text
    let others ← r.seriesFrom (index + 1) rest
    return first.toList ++ others

def sampleAll (r : PlotRequest) : Except CalcError (List (Series Float)) :=
  if limit < r.expressions.length then
    .error (.range (.plotCount limit r.expressions.length))
  else r.seriesFrom 0 r.expressions

end PlotRequest

end SciCalc
