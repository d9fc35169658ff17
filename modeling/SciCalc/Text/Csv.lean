/-!
# Comma-separated records

A record is a line of fields with commas between them. A field that holds a comma, a
quotation mark or a line end is enclosed in quotation marks, and its own quotation
marks are doubled.
-/

namespace SciCalc.Text.Csv

/-- Characters that force a field into quotation marks. -/
def isSpecial (c : Char) : Bool :=
  c = ',' || c = '"' || c = '\r' || c = '\n'

/-- Quotation marks written twice. -/
def double : List Char → List Char
  | [] => []
  | c :: rest => if c = '"' then '"' :: '"' :: double rest else c :: double rest

def writeField (field : List Char) : List Char :=
  if field.any isSpecial then '"' :: (double field ++ ['"']) else field

/-- A record with its line end. -/
def writeRecord (fields : List (List Char)) : List Char :=
  [','].intercalate (fields.map writeField) ++ ['\n']

def write (records : List (List (List Char))) : List Char :=
  records.flatMap writeRecord

/-- Where a reader stands: before a field, inside a bare one, inside a quoted one,
or behind a quotation mark inside a quoted one, which may end it. -/
inductive Place where
  | start
  | bare
  | quoted
  | closing
  deriving DecidableEq, Repr

/-- What has been read: whole records, the whole fields of the current one, and the
characters of the current field, each with the latest in front. -/
structure Progress where
  records : List (List (List Char))
  fields : List (List Char)
  field : List Char

namespace Progress

def addChar (p : Progress) (c : Char) : Progress :=
  { p with field := c :: p.field }

def endField (p : Progress) : Progress :=
  { p with fields := p.field.reverse :: p.fields, field := [] }

def endRecord (p : Progress) : Progress :=
  let p := p.endField
  { p with records := p.fields.reverse :: p.records, fields := [] }

/-- The records at the end of the text; a record without a line end counts, an empty
line there does not. -/
def finish (p : Progress) : List (List (List Char)) :=
  if p.fields.isEmpty && p.field.isEmpty then p.records.reverse
  else p.endRecord.records.reverse

end Progress

/-- Reads on from a place. A line ends with a line feed, which a carriage return may
precede. A quotation mark inside a bare field, a character between a closing
quotation mark and the next comma, or a field that is never closed makes the text
malformed. -/
def readFrom (place : Place) (p : Progress) :
    List Char → Option (List (List (List Char)))
  | [] =>
    match place with
    | .quoted => none
    | .closing => some p.endRecord.records.reverse
    | _ => some p.finish
  | c :: rest =>
    match place with
    | .quoted =>
      if c = '"' then readFrom .closing p rest else readFrom .quoted (p.addChar c) rest
    | .closing =>
      if c = '"' then readFrom .quoted (p.addChar c) rest
      else if c = ',' then readFrom .start p.endField rest
      else if c = '\n' then readFrom .start p.endRecord rest
      else if c = '\r' ∧ rest.head? = some '\n' then readFrom .closing p rest
      else none
    | place =>
      if c = '"' then (if place = .start then readFrom .quoted p rest else none)
      else if c = ',' then readFrom .start p.endField rest
      else if c = '\n' then readFrom .start p.endRecord rest
      else if c = '\r' ∧ rest.head? = some '\n' then readFrom place p rest
      else readFrom .bare (p.addChar c) rest

/-- The records of a text, unless it is malformed. -/
def read (text : List Char) : Option (List (List (List Char))) :=
  readFrom .start ⟨[], [], []⟩ text

end SciCalc.Text.Csv
