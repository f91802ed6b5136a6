import Campaign.Dialect
import Campaign.Record
import Campaign.Report.Error

namespace Campaign.Ior

def marker : List Char := "Summary of all tests:".toList

abbrev Row := List (List Char)

def Row.operation? (row : Row) : Option Operation :=
  Operation.all.find? fun op => row.head? = some op.name.toList

/-- A reader between two lines: it waits for the marker, then for the header, and then for the first
row of each operation. -/
inductive Reader where
  | unmarked
  | marked
  | inTable (header : Row) (rows : PerOperation (Option Row))

namespace Reader

def start : Reader := .unmarked

def header? : Reader → Option Row
  | .inTable header _ => some header
  | _ => none

def row? (reader : Reader) (op : Operation) : Option Row :=
  match reader with
  | .inTable _ rows => rows.get op
  | _ => none

def isComplete (reader : Reader) : Bool :=
  (reader.row? .write).isSome && (reader.row? .read).isSome

def stepRow (header : Row) (rows : PerOperation (Option Row)) (row : Row) : Reader :=
  match row.operation? with
  | some op => if (rows.get op).isSome then .inTable header rows
    else .inTable header (rows.set op (some row))
  | none => .inTable header rows

def step (reader : Reader) (line : List Char) : Reader :=
  match reader with
  | .unmarked => if marker.isPrefixOf line then .marked else .unmarked
  | .marked => if line.isEmpty then .marked
    else .inTable (Text.words line) { read := none, write := none }
  | .inTable header rows => stepRow header rows (Text.words line)

def read (reader : Reader) : List (List Char) → Reader
  | [] => reader
  | line :: rest => if reader.isComplete then reader else (reader.step (Text.trim line)).read rest

end Reader

def metrics (header row : Row) : Metrics :=
  Metrics.zip (header.map String.ofList) (row.map String.ofList) numericColumns

def missingParts (header? write? read? : Option Row) : List ReportPart :=
  (if header?.isNone then [.header] else []) ++ (if write?.isNone then [.row .write] else []) ++
    (if read?.isNone then [.row .read] else [])

def ofRows (header? write? read? : Option Row) : Except ReportError RunRecord :=
  match header?, write?, read? with
  | some header, some write, some read =>
    .ok { read := metrics header read, write := metrics header write }
  | header?, write?, read? => .error (.malformed (missingParts header? write? read?))

def parse (text : List Char) : Except ReportError RunRecord :=
  let reader := Reader.start.read (text.splitOn '\n')
  ofRows reader.header? (reader.row? .write) (reader.row? .read)

end Campaign.Ior
