import SciCalc.Decimal.Reader
import SciCalc.Expression.Context
import SciCalc.LogLevel
import SciCalc.Plot.Request
import SciCalc.Plot.Viewport
import SciCalc.Settings.Document
import SciCalc.Settings.FileFault

/-!
# Calculator settings

The settings of a calculator, read from a document. A key that the document does not
mention keeps its standard value, and of several values for one key the last counts.
The first pair with an unknown key or a value that its key does not admit is the
error.
-/

namespace SciCalc

structure Settings where
  mode : AngleMode
  x : Span Float
  y : Span Float
  count : Nat
  variableName : String
  logLevel : String

inductive SettingsError where
  | file (path : String) (fault : FileFault)
  | line (text : String)
  | unknownKey (key : String)
  | number (key value : String)
  | mode (value : String)
  | count (value : String)
  | variableName (value : String)
  | logLevel (word : String)
  deriving DecidableEq, Repr

namespace SettingsError

def message : SettingsError → String
  | file path fault => "cannot read settings file " ++ path ++ ": " ++ fault.message
  | line text => "cannot parse settings line '" ++ text ++ "'"
  | unknownKey key => "unknown settings key '" ++ key ++ "'"
  | number key value => key ++ ": expected a finite number, got '" ++ value ++ "'"
  | mode value => "angle_mode: expected deg or rad, got '" ++ value ++ "'"
  | count value => "step_count: expected a non-negative integer, got '" ++ value ++ "'"
  | variableName value =>
    "variable: expected a name made of letters that is not a function or constant, " ++
      "got '" ++ value ++ "'"
  | logLevel word => "log_level: " ++ LogLevel.unknownMessage word.toList

end SettingsError

namespace Settings

def standard : Settings where
  mode := .degrees
  x := ⟨-10, 10⟩
  y := ⟨-10, 10⟩
  count := PlotRequest.standardCount
  variableName := "x"
  logLevel := "info"

/-- A value that has to be a finite number. -/
def number (key value : String) : Except SettingsError Float :=
  match Decimal.readFloat? value.toList with
  | some v => if v.isFinite then .ok v else .error (.number key value)
  | none => .error (.number key value)

/-- Letters only, and neither a function nor a constant. -/
def isVariableName (value : String) : Bool :=
  !value.toList.isEmpty && value.toList.all Char.isAlpha &&
    (Elementary.ofName? value).isNone && (constant? value).isNone

/-- The settings with one of them set. -/
def set (s : Settings) (key value : String) : Except SettingsError Settings :=
  match key with
  | "angle_mode" =>
    match AngleMode.ofText? value with
    | some mode => .ok { s with mode }
    | none => .error (.mode value)
  | "x_min" => (number key value).map fun v => { s with x := { s.x with low := v } }
  | "x_max" => (number key value).map fun v => { s with x := { s.x with high := v } }
  | "y_min" => (number key value).map fun v => { s with y := { s.y with low := v } }
  | "y_max" => (number key value).map fun v => { s with y := { s.y with high := v } }
  | "step_count" =>
    match Decimal.readWord? value.toList with
    | some count => .ok { s with count }
    | none => .error (.count value)
  | "variable" =>
    if isVariableName value then .ok { s with variableName := value }
    else .error (.variableName value)
  | "log_level" =>
    match LogLevel.ofText value.toList with
    | .ok _ => .ok { s with logLevel := String.ofList (Text.lower value.toList) }
    | .error word => .error (.logLevel (String.ofList word))
  | _ => .error (.unknownKey key)

/-- The settings with pairs of keys and values set one after the other. -/
def setAll (s : Settings) : List (String × String) → Except SettingsError Settings
  | [] => .ok s
  | (key, value) :: rest => do
    let s ← s.set key value
    s.setAll rest

/-- The pairs of a document as texts. -/
def readPairs (document : String) : Except SettingsError (List (String × String)) :=
  match pairs document.toList with
  | .ok found =>
    .ok (found.map fun (key, value) => (String.ofList key, String.ofList value))
  | .error text => .error (.line (String.ofList text))

/-- The settings of a document. -/
def read (document : String) : Except SettingsError Settings := do
  let found ← readPairs document
  standard.setAll found

/-- The settings in a file of the given bytes; no bytes mean that there is no such
file. -/
def ofFile (path : String) (content : Option ByteArray) :
    Except SettingsError Settings :=
  match content with
  | none => .error (.file path (.ofPath path))
  | some bytes =>
    match String.fromUTF8? bytes with
    | none => .error (.file path .notText)
    | some document => read document

/-- The context in which expressions are evaluated under the settings. -/
def context (s : Settings) : Context :=
  Context.empty s.mode

/-- The request for a plot of expressions under the settings. -/
def plotRequest (s : Settings) (expressions : List String) : PlotRequest where
  expressions := expressions
  low := s.x.low
  high := s.x.high
  count := s.count
  mode := s.mode
  variableName := s.variableName

def viewport (s : Settings) : Except (RangeError Float) (Viewport Float) :=
  Viewport.ofSpans s.x s.y

end Settings

end SciCalc
