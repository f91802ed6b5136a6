import Campaign.Text.Blank

namespace Campaign.Csv

/-- The fields of a row, and the number of the line on which the search for it began: blank lines
before the row are not counted, and of a return with a feed only the feed counts, for the next
row. -/
structure Row where
  line : Nat
  fields : List (List Char)
  deriving DecidableEq

inductive Position where
  | beforeRow
  | beforeField
  | inField
  | inQuotes
  /-- After a quotation mark inside quotes. -/
  | afterQuote
  deriving DecidableEq

structure Reader where
  position : Position
  line : Nat
  rowLine : Nat
  field : List Char
  fields : List (List Char)
  rows : List Row

namespace Reader

def start : Reader :=
  { position := .beforeRow, line := 1, rowLine := 1, field := [], fields := [], rows := [] }

def put (reader : Reader) (position : Position) (c : Char) : Reader :=
  { reader with position := position, field := c :: reader.field }

def endField (reader : Reader) : Reader :=
  { reader with
    position := .beforeField
    field := []
    fields := Text.trim reader.field.reverse :: reader.fields }

def endRow (reader : Reader) : Reader :=
  let last := reader.endField
  { last with
    position := .beforeRow
    rowLine := last.line
    fields := []
    rows := { line := last.rowLine, fields := last.fields.reverse } :: last.rows }

def isLineEnd (c : Char) : Bool := c == '\n' || c == '\r'

def stepPlain (reader : Reader) (c : Char) : Reader :=
  if c = ',' then reader.endField
  else if isLineEnd c then reader.endRow
  else reader.put .inField c

def stepField (reader : Reader) (c : Char) : Reader :=
  if c = '"' then { reader with position := .inQuotes } else reader.stepPlain c

def stepCounted (reader : Reader) (c : Char) : Reader :=
  match reader.position with
  | .beforeRow => if isLineEnd c then reader else reader.stepField c
  | .beforeField => reader.stepField c
  | .inField => reader.stepPlain c
  | .inQuotes =>
    if c = '"' then { reader with position := .afterQuote } else reader.put .inQuotes c
  | .afterQuote => if c = '"' then reader.put .inQuotes c else reader.stepPlain c

def step (reader : Reader) (c : Char) : Reader :=
  (if c = '\n' then { reader with line := reader.line + 1 } else reader).stepCounted c

def finish (reader : Reader) : List Row :=
  (if reader.position = .beforeRow then reader else reader.endRow).rows.reverse

end Reader

def dropMark : List Char → List Char
  | '\uFEFF' :: rest => rest
  | text => text

/-- The rows of a text, the fields trimmed. A field that begins with a quotation mark goes on to the
closing one, commas and line ends included, with doubled marks for single ones; what follows the
closing mark is part of the field as well. -/
def rows (text : List Char) : List Row := ((dropMark text).foldl Reader.step .start).finish

end Campaign.Csv
