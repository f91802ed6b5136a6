import Campaign.Dialect
import Campaign.Record
import Campaign.Report.Error

namespace Campaign.Lsm

def banner? (line : List Char) : Option Operation :=
  match (Text.words line).head? with
  | none => none
  | some word =>
    let title := (word.reverse.dropWhile (· = ':')).reverse
    if title = "WRITE".toList ∨ title = "Bench-WRITE".toList then some .write
    else if title = "READ".toList ∨ title = "Bench-READ".toList then some .read
    else none

inductive Section where
  | awaited
  | begun (header : List Char)
  | complete (header row : List Char)

def Section.isComplete : Section → Bool
  | .complete _ _ => true
  | _ => false

def Section.missingPart? (op : Operation) : Section → Option ReportPart
  | .awaited => some (.wholeSection op)
  | .begun _ => some (.row op)
  | .complete _ _ => none

/-- A reader between two lines: the sections so far, and the operation whose section is open. -/
structure Reader where
  sections : PerOperation Section
  active : Option Operation

namespace Reader

def start : Reader := { sections := { read := .awaited, write := .awaited }, active := none }

def isComplete (reader : Reader) : Bool :=
  reader.sections.write.isComplete && reader.sections.read.isComplete

/-- A banner opens its section, anew if that was begun before, but not one that is complete. -/
def stepBanner (reader : Reader) (op : Operation) : Reader :=
  if (reader.sections.get op).isComplete then { reader with active := none }
  else { sections := reader.sections.set op .awaited, active := some op }

def stepContent (reader : Reader) (line : List Char) : Reader :=
  match reader.active with
  | none => reader
  | some op =>
    match reader.sections.get op with
    | .awaited => { reader with sections := reader.sections.set op (.begun line) }
    | .begun header | .complete header _ =>
      { sections := reader.sections.set op (.complete header line), active := none }

def step (reader : Reader) (line : List Char) : Reader :=
  match banner? line with
  | some op => reader.stepBanner op
  | none => if line.isEmpty then reader else reader.stepContent line

def read (reader : Reader) : List (List Char) → Reader
  | [] => reader
  | line :: rest =>
    let next := reader.step (Text.trim line)
    if next.isComplete then next else next.read rest

end Reader

def isFailed (row : List Char) : Bool := (Text.commaFields row)[1]? == some "FAILED".toList

def metrics (header row : List Char) : Metrics :=
  Metrics.zip ((Text.commaFields header).map String.ofList)
    ((Text.commaFields row).map String.ofList) numericColumns

def ofSections (sections : PerOperation Section) : Except ReportError RunRecord :=
  match sections.write, sections.read with
  | .complete writeHeader writeRow, .complete readHeader readRow =>
    if isFailed writeRow then .error (.failedRun .write)
    else if isFailed readRow then .error (.failedRun .read)
    else .ok { read := metrics readHeader readRow, write := metrics writeHeader writeRow }
  | write, read =>
    .error (.malformed ((write.missingPart? .write).toList ++ (read.missingPart? .read).toList))

def parse (text : List Char) : Except ReportError RunRecord :=
  ofSections (Reader.start.read (text.splitOn '\n')).sections

def figure (record : RunRecord) (op : Operation) (column : String) : Except ReportError Binary64 :=
  match record.number? op column with
  | some value => .ok value
  | none => .error (.missingMetric op column)

def totals (record : RunRecord) (op : Operation) : Except ReportError Totals := do
  let max ← figure record op maxColumn
  let min ← figure record op minColumn
  let mean ← figure record op meanColumn
  let mib ← figure record op totalMibColumn
  let ops ← figure record op totalOpsColumn
  let iteration ← figure record op iterationColumn
  return { max := max, min := min, mean := mean, mib := mib, ops := ops,
           iteration := iteration.toCount }

def nodeTotals (record : RunRecord) : Except ReportError (PerOperation Totals) := do
  let read ← totals record .read
  let write ← totals record .write
  return { read := read, write := write }

end Campaign.Lsm
