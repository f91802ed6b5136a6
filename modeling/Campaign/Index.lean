import Campaign.Aggregation

namespace Campaign

/-- The aggregates of all cells; a cell without one of its own is empty. -/
structure Index where
  dialect : Dialect
  aggregates : List (Cell × Aggregate)
  deriving DecidableEq

namespace Index

def get (index : Index) (cell : Cell) : Aggregate := (index.aggregates.lookup cell).getD .empty

def cells (index : Index) : List (Cell × Aggregate) :=
  Cell.all.map fun cell => (cell, index.get cell)

def populated (index : Index) : Nat :=
  (index.cells.filter fun (_, record) => !record.isEmpty).length

def ofCatalog (files : FileSystem) (catalog : Catalog) (dialect : Dialect) :
    Index × List Anomaly :=
  let aggregations := Cell.all.map fun cell => (cell, catalog.aggregate files dialect cell)
  ({ dialect := dialect
     aggregates := aggregations.map fun (cell, aggregation) => (cell, aggregation.aggregate) },
   aggregations.flatMap fun (_, aggregation) => aggregation.anomalies)

def build (files : FileSystem) (root : Path) (dialect : Dialect) :
    Except RootUnreadable (Index × List Anomaly) :=
  (Catalog.build files root).map fun (catalog, before) =>
    let (index, anomalies) := ofCatalog files catalog dialect
    (index, before ++ anomalies)

theorem lookup_map_self {α β : Type} [DecidableEq α] (f : α → β) {keys : List α} {key : α}
    (member : key ∈ keys) : (keys.map fun key => (key, f key)).lookup key = some (f key) := by
  induction keys with
  | nil => simp at member
  | cons head rest ih =>
    rw [List.map_cons, List.lookup_cons]
    by_cases same : key = head
    · simp [same]
    · simp only [beq_eq_false_iff_ne.mpr same]
      exact ih ((List.mem_cons.mp member).resolve_left same)

theorem get_ofCatalog (files : FileSystem) (catalog : Catalog) (dialect : Dialect) (cell : Cell) :
    (ofCatalog files catalog dialect).1.get cell =
      (catalog.aggregate files dialect cell).aggregate := by
  have found := lookup_map_self (fun cell => (catalog.aggregate files dialect cell).aggregate)
    cell.mem_all
  simp only [get, ofCatalog, List.map_map, Function.comp_def, found, Option.getD_some]

end Index

end Campaign
