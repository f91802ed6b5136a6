import Campaign.Catalog
import Campaign.CommandLine.Request
import Campaign.HumanUnits
import Campaign.RecordJson
import Campaign.Summary
import Campaign.Text.Lines

namespace Campaign.CommandLine

def columns (texts : List String) : String := String.intercalate "  " texts

def datesText : Option (CalendarDate × CalendarDate) → String
  | none => "-"
  | some (first, last) => if first = last then first.text else first.text ++ ".." ++ last.text

def treeColumns (nodes stripes size files bytes dates first : String) : String :=
  columns [Text.padLeft 5 nodes, Text.padLeft 7 stripes, Text.padLeft 5 size, Text.padLeft 5 files,
    Text.padLeft 9 bytes, Text.padRight 21 dates, first]

def treeLine (nodes : String) (count : Nat) (size : String) (files : CellOutputs) : String :=
  let bytes := files.total (·.size)
  treeColumns nodes (Text.decimal count) size (Text.decimal files.size) (bytesText bytes .compact)
    (datesText files.dateRange?) (Text.truncate (files.keys.head?.getD "-") 48)

def treeText (catalog : Catalog) : String :=
  let lines := catalog.classes.pairs.flatMap fun (nodes, counts) =>
    counts.pairs.flatMap fun (count, sizes) =>
      sizes.pairs.map fun (size, files) => treeLine nodes count size files
  Text.unlines (catalog.root.text ::
    treeColumns "NODES" "STRIPES" "SIZE" "FILES" "BYTES" "DATES" "FIRST" ::
    lines ++ [Text.decimal catalog.fileCount ++ " files"])

def Selection.title (selection : Selection) : String :=
  selection.op.name ++ " stripes=" ++ selection.stripes.label ++ " size=" ++ selection.size.label

def seriesTable (selection : Selection) (series : Series) : String :=
  let head := columns [Text.padLeft 5 "NODES", Text.padLeft 12 "MAX(MiB/s)", Text.padLeft 10 "RATE"]
  let lines := series.points.map fun (nodes, value) =>
    columns [Text.padLeft 5 (Text.decimal nodes), figureText (some value) 12 2,
      Text.padLeft 10 (rateText value .compact)]
  Text.unlines (selection.title :: head :: lines)

def seriesJson (selection : Selection) (series : Series) : String :=
  String.ofList (series.jsonLines selection.op selection.stripes selection.size ++ ['\n'])

def seriesText (selection : Selection) (series : Series) : String :=
  if selection.json then seriesJson selection series else seriesTable selection series

def Selection.figures (selection : Selection) (summary : Summary) : Table Nat Throughput :=
  summary.byNodes selection.op selection.stripes.count selection.size.label

def summaryTable (selection : Selection) (summary : Summary) : String :=
  let head := columns [Text.padLeft 5 "NODES", Text.padLeft 12 "MAX(MiB/s)",
    Text.padLeft 12 "MIN(MiB/s)", Text.padLeft 12 "MEAN(MiB/s)"]
  let lines := (selection.figures summary).pairs.map fun (nodes, figures) =>
    columns [Text.padLeft 5 (Text.decimal nodes), figureText (some figures.max) 12 2,
      figureText (some figures.min) 12 2, figureText (some figures.mean) 12 2]
  Text.unlines (selection.title :: head :: lines)

def summaryText (selection : Selection) (summary : Summary) : String :=
  if selection.json then
    seriesJson selection
      (summary.series selection.op selection.stripes.count selection.size.label)
  else summaryTable selection summary

end Campaign.CommandLine
