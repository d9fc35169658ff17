import SciCalc.Text.Lowercase

/-!
# Log levels

How much a program tells about its work. `off` and `none` both mean nothing.
-/

namespace SciCalc

inductive LogLevel where
  | off
  | error
  | warn
  | info
  | debug
  deriving DecidableEq, Repr

namespace LogLevel

def label : LogLevel → String
  | off => "OFF"
  | error => "ERROR"
  | warn => "WARN"
  | info => "INFO"
  | debug => "DEBUG"

/-- Each accepted word beside its level. -/
def words : List (List Char × LogLevel) :=
  [("off".toList, off), ("none".toList, off), ("debug".toList, debug),
   ("info".toList, info), ("warn".toList, warn), ("error".toList, error)]

/-- The word that decides: blanks at the ends and the case of letters do not matter. -/
def keyword (text : List Char) : List Char :=
  Text.lower (Text.trim text)

/-- The level a text names, or the word that names none. -/
def ofText (text : List Char) : Except (List Char) LogLevel :=
  match words.lookup (keyword text) with
  | some level => .ok level
  | none => .error (keyword text)

/-- The message for a word that names no level. -/
def unknownMessage (word : List Char) : String :=
  "loglevel must be off, none, debug, info, warn or error, got '" ++
    String.ofList word ++ "'"

/-- Nothing is to be logged at all. -/
def isSilent (level : LogLevel) : Bool :=
  level == off

end LogLevel

end SciCalc
