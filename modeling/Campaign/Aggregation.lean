import Campaign.Catalog
import Campaign.Report

namespace Campaign

structure Aggregation where
  aggregate : Aggregate
  anomalies : List Anomaly
  deriving DecidableEq

namespace Aggregation

abbrev Readings (α : Type) := List (Path × Except ReportError α)

def Readings.usable {α : Type} (readings : Readings α) : List α :=
  readings.filterMap fun (_, result) => result.toOption

def Readings.anomalies {α : Type} (readings : Readings α) : List Anomaly :=
  readings.filterMap fun (path, result) =>
    match result with
    | .ok _ => none
    | .error error => some (.unusableFile path error)

def mismatch (cell : Cell) (scope : CountScope) (expected found : Nat) : List Anomaly :=
  if found = expected then [] else [.countMismatch cell scope expected found]

def writers (files : CellOutputs) : List OutputFile := files.values.filter fun file => 0 < file.size

/-- The aggregate of one writer: the record of the first file that is not empty and can be used. -/
def ofWriter (files : FileSystem) (cell : Cell) (outputs : CellOutputs) : Aggregation :=
  let writers := writers outputs
  let readings : Readings RunRecord := writers.map fun file =>
    (file.path, Dialect.ior.readReport files file.path)
  { aggregate := match readings.usable with
      | [] => .empty
      | record :: _ => .single record
    anomalies := mismatch cell .usable 1 writers.length ++ readings.anomalies }

def nodeTotals (files : FileSystem) (path : Path) : Except ReportError (PerOperation Totals) := do
  let record ← Dialect.lsm.readReport files path
  Lsm.nodeTotals record

def ofNodes (files : FileSystem) (cell : Cell) (outputs : CellOutputs) : Aggregation :=
  let readings : Readings (PerOperation Totals) := outputs.values.map fun file =>
    (file.path, nodeTotals files file.path)
  let nodes := readings.usable
  { aggregate := if nodes.isEmpty then .empty else .summed (.ofNodes nodes)
    anomalies := readings.anomalies ++ mismatch cell .usable cell.participants nodes.length }

end Aggregation

def Dialect.aggregate (dialect : Dialect) (files : FileSystem) (cell : Cell)
    (outputs : CellOutputs) : Aggregation :=
  match dialect with
  | .ior => .ofWriter files cell outputs
  | .lsm => .ofNodes files cell outputs

def Catalog.aggregate (catalog : Catalog) (files : FileSystem) (dialect : Dialect) (cell : Cell) :
    Aggregation :=
  match catalog.outputs cell with
  | .error level => { aggregate := .empty, anomalies := [.missingCell cell level] }
  | .ok outputs =>
    let aggregation := dialect.aggregate files cell outputs
    { aggregation with
      anomalies :=
        Aggregation.mismatch cell .catalogued cell.participants outputs.size ++
          aggregation.anomalies }

end Campaign
