import SciCalc.Text.Lines

/-!
# File faults

Why no text can be read from a file, and which fault a path has where no file stands.
-/

namespace SciCalc

inductive FileFault where
  | zeroCharacter
  | nameTooLong
  | directory
  | missing
  | notText
  deriving DecidableEq, Repr

namespace FileFault

def message : FileFault → String
  | zeroCharacter => "file name contained an unexpected NUL byte"
  | nameTooLong => "File name too long (os error 36)"
  | directory => "Is a directory (os error 21)"
  | missing => "No such file or directory (os error 2)"
  | notText => "stream did not contain valid UTF-8"

/-- The most bytes of a path. -/
def pathLimit : Nat :=
  4095

/-- The most bytes of a name in a directory. -/
def nameLimit : Nat :=
  255

/-- Names that stay in a directory or lead to the one around it. -/
def walkingNames : List (List Char) :=
  [[], ['.'], ['.', '.']]

/-- The first name of a path that has to be looked up. -/
def firstName? (path : String) : Option (List Char) :=
  (Text.splitAtMark '/' path.toList).find? fun name => !walkingNames.contains name

/-- The fault of a path at which no file stands. A name is looked up only if the
directory before it is there, so that the length of the first name alone counts. -/
def ofPath (path : String) : FileFault :=
  if path.toList.contains '\x00' then .zeroCharacter
  else if pathLimit < path.utf8ByteSize then .nameTooLong
  else if path.isEmpty then .missing
  else
    match firstName? path with
    | none => .directory
    | some name =>
      if nameLimit < (String.ofList name).utf8ByteSize then .nameTooLong else .missing

end FileFault

end SciCalc
