import Campaign.Csv
import Campaign.FileSystem
import Campaign.Series

namespace Campaign

structure SummaryKey where
  op : Operation
  stripes : Nat
  size : String
  nodes : Nat
  deriving DecidableEq

structure Summary where
  rows : PerOperation (Table Nat (Table String (Table Nat Throughput)))
  deriving DecidableEq

inductive RowFault where
  | tooFewFields (found : Nat)
  | invalidNodes (text : String)
  | invalidStripes (text : String)
  | invalidOperation (error : Operation.NameError)
  | invalidNumber (text : String)
  deriving DecidableEq

def RowFault.message : RowFault → String
  | .tooFewFields found =>
    "expected at least 7 fields, got " ++ Text.decimal found
  | .invalidNodes text => "invalid node count '" ++ text ++ "'"
  | .invalidStripes text => "invalid stripe count '" ++ text ++ "'"
  | .invalidOperation error => error.message
  | .invalidNumber text => "invalid number '" ++ text ++ "'"

inductive SummaryError where
  | unreadable (fault : Fault)
  | line (number : Nat) (fault : RowFault)
  deriving DecidableEq

def SummaryError.message : SummaryError → String
  | .unreadable fault => "I/O error: " ++ fault.message
  | .line number fault => "line " ++ Text.decimal number ++ ": " ++ fault.message

namespace Summary

def empty : Summary := { rows := { read := .empty, write := .empty } }

def insert (summary : Summary) (key : SummaryKey) (figures : Throughput) : Summary :=
  { rows := summary.rows.set key.op ((summary.rows.get key.op).alter key.stripes fun sizes? =>
      (sizes?.getD .empty).alter key.size fun nodes? =>
        (nodes?.getD .empty).insert key.nodes figures) }

def byNodes (summary : Summary) (op : Operation) (stripes : Nat) (size : String) :
    Table Nat Throughput :=
  (((summary.rows.get op).get? stripes).bind (·.get? size)).getD .empty

def point? (summary : Summary) (key : SummaryKey) : Option Throughput :=
  (summary.byNodes key.op key.stripes key.size).get? key.nodes

def series (summary : Summary) (op : Operation) (stripes : Nat) (size : String) : Series :=
  { points := (summary.byNodes op stripes size).pairs.map fun (nodes, figures) =>
      (nodes, figures.max) }

def size (summary : Summary) : Nat :=
  let count (op : Operation) : Nat :=
    (summary.rows.get op).total fun sizes => sizes.total Table.size
  count .read + count .write

def isEmpty (summary : Summary) : Bool :=
  Operation.all.all fun op => (summary.rows.get op).isEmpty

def readCount (fault : String → RowFault) (field : List Char) : Except RowFault Nat :=
  match Text.readCount? field with
  | some count => .ok count
  | none => .error (fault (String.ofList field))

def readFigure (field : List Char) : Except RowFault Binary64 :=
  if field.isEmpty then .ok .zero
  else match Binary64.ofText? field with
    | some value => .ok value
    | none => .error (.invalidNumber (String.ofList field))

def readRow (fields : List (List Char)) : Except RowFault (SummaryKey × Throughput) :=
  match fields with
  | nodes :: stripes :: size :: op :: max :: min :: mean :: _ => do
    let nodes ← readCount .invalidNodes nodes
    let stripes ← readCount .invalidStripes stripes
    let op ← (Operation.ofText (String.ofList op)).mapError .invalidOperation
    let max ← readFigure max
    let min ← readFigure min
    let mean ← readFigure mean
    return ({ op := op, stripes := stripes, size := String.ofList size, nodes := nodes },
      { max := max, min := min, mean := mean })
  | _ => .error (.tooFewFields fields.length)

def isBlank (row : Csv.Row) : Bool := row.fields.all List.isEmpty

def isData (row : Csv.Row) : Bool :=
  (row.fields.head?.bind Text.readCount?).isSome

def addRow (summary : Summary) (row : Csv.Row) : Except SummaryError Summary :=
  match readRow row.fields with
  | .ok (key, figures) => .ok (summary.insert key figures)
  | .error fault => .error (.line row.line fault)

structure Reader where
  summary : Summary
  begun : Bool

def Reader.start : Reader := { summary := .empty, begun := false }

/-- Blank rows are passed over. The first other row may be a header, which does not begin with a
number of nodes; all the rest have to be data. -/
def Reader.step (reader : Reader) (row : Csv.Row) : Except SummaryError Reader :=
  if isBlank row then .ok reader
  else if !reader.begun && !isData row then .ok { reader with begun := true }
  else (reader.summary.addRow row).map fun summary => { summary := summary, begun := true }

/-- The summary that a text holds. Of rows with one key the last one counts. -/
def parse (text : List Char) : Except SummaryError Summary :=
  ((Csv.rows text).foldlM Reader.step .start).map (·.summary)

def ofFile (files : FileSystem) (path : Path) : Except SummaryError Summary :=
  match files.readText path with
  | .ok text => parse text.toList
  | .error fault => .error (.unreadable fault)

end Summary

end Campaign
