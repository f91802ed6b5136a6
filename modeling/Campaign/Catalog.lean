import Campaign.RunName
import Campaign.Snapshot

namespace Campaign

structure OutputFile where
  size : Nat
  path : Path
  name : RunName
  deriving DecidableEq

abbrev CellOutputs := Table String OutputFile

abbrev ClassOutputs := Table Nat (Table String CellOutputs)

def ClassOutputs.add (files : ClassOutputs) (fileName : String) (file : OutputFile) :
    ClassOutputs :=
  files.alter file.name.stripeCount fun sizes? =>
    (sizes?.getD .empty).alter file.name.stripeSize fun cell? =>
      (cell?.getD .empty).insert fileName file

/-- The output files below a root, by the name of their node-count directory. -/
structure Catalog where
  root : Path
  classes : Table String ClassOutputs
  deriving DecidableEq

namespace Catalog

def recognizeEntry (directory : Path) (name : String) : Entry → Except Anomaly OutputFile
  | .directory _ => .error (.unexpectedEntry (directory.join name) .nestedDirectory)
  | .file size =>
    match RunName.recognize name with
    | .ok runName => .ok { size := size, path := directory.join name, name := runName }
    | .error _ => .error (.unrecognizedName (directory.join name))

def recognizeDate (directory : Path) (date : String) :
    Entry → List (Except Anomaly (String × OutputFile))
  | .file _ => [.error (.unexpectedEntry (directory.join date) .notDateDirectory)]
  | .directory entries => entries.map fun (name, entry) =>
    (recognizeEntry (directory.join date) name entry).map (name, ·)

def recognizeClass (directory : Path) (dates : List (String × Entry)) :
    List (Except Anomaly (String × OutputFile)) :=
  dates.flatMap fun (date, entry) => recognizeDate directory date entry

/-- The files among the contents of a node-count directory. A later date takes the place of an
earlier one where both have a file of one name. -/
def collect (contents : List (Except Anomaly (String × OutputFile))) : ClassOutputs :=
  contents.foldl (fun files item =>
    match item with
    | .ok (name, file) => files.add name file
    | .error _ => files) .empty

def anomaly? {α : Type} : Except Anomaly α → Option Anomaly
  | .ok _ => none
  | .error anomaly => some anomaly

def ofEntries (root : Path) (entries : List (String × Entry)) : Catalog :=
  { root := root
    classes := Table.ofList (entries.filterMap fun (nodes, entry) =>
      match entry with
      | .file _ => none
      | .directory dates => some (nodes, collect (recognizeClass (root.join nodes) dates))) }

def anomaliesOf (root : Path) (entries : List (String × Entry)) : List Anomaly :=
  entries.flatMap fun (nodes, entry) =>
    match entry with
    | .file _ => [.unexpectedEntry (root.join nodes) .notClassDirectory]
    | .directory dates => (recognizeClass (root.join nodes) dates).filterMap anomaly?

def files? (catalog : Catalog) (nodes : String) (count : Nat) (size : String) :
    Option CellOutputs := do
  let counts ← catalog.classes.get? nodes
  let sizes ← counts.get? count
  sizes.get? size

/-- The files of a cell, or the level at which there are none. -/
def outputs (catalog : Catalog) (cell : Cell) : Except CatalogLevel CellOutputs :=
  match catalog.classes.get? cell.nodes.label with
  | none => .error .nodeCount
  | some counts =>
    match counts.get? cell.stripes.count with
    | none => .error .stripeCount
    | some sizes =>
      match sizes.get? cell.size.label with
      | none => .error .stripeSize
      | some files => .ok files

def fileCount (catalog : Catalog) : Nat :=
  catalog.classes.total fun counts => counts.total fun sizes => sizes.total Table.size

def build (files : FileSystem) (root : Path) : Except RootUnreadable (Catalog × List Anomaly) :=
  (Snapshot.take files root).map fun snapshot =>
    (ofEntries root snapshot.entries, snapshot.anomalies ++ anomaliesOf root snapshot.entries)

end Catalog

def CellOutputs.dateRange? (files : CellOutputs) : Option (CalendarDate × CalendarDate) :=
  match files.values.filterMap (·.name.runDate?) with
  | [] => none
  | date :: dates => some (dates.foldl .earlier date, dates.foldl .later date)

end Campaign
