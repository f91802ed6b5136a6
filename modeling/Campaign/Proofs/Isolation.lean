import Campaign.Index
import Campaign.MemoryTree
import Campaign.Proofs.Aggregations
import Mathlib.Data.List.Induction

namespace Campaign

namespace Cell

def slot (cell : Cell) : Fin 9 × Fin 2 × Fin 3 :=
  (⟨cell.nodes.place, List.idxOf_lt_length_of_mem cell.nodes.mem_all⟩,
    ⟨cell.stripes.place, List.idxOf_lt_length_of_mem cell.stripes.mem_all⟩,
    ⟨cell.size.place, List.idxOf_lt_length_of_mem cell.size.mem_all⟩)

theorem slot_injective : Function.Injective slot := by
  intro left right same
  obtain ⟨nodes, others⟩ := Prod.mk.inj same
  obtain ⟨stripes, size⟩ := Prod.mk.inj others
  have nodes := (List.idxOf_inj left.nodes.mem_all).mp (congrArg Fin.val nodes)
  have stripes := (List.idxOf_inj left.stripes.mem_all).mp (congrArg Fin.val stripes)
  have size := (List.idxOf_inj left.size.mem_all).mp (congrArg Fin.val size)
  cases left
  cases right
  cases nodes
  cases stripes
  cases size
  rfl

end Cell

abbrev Slots := Vector (Vector (Vector Aggregate 3) 2) 9

namespace Slots

def empty : Slots := Vector.replicate 9 (Vector.replicate 2 (Vector.replicate 3 .empty))

def get (slots : Slots) (cell : Cell) : Aggregate :=
  ((slots[cell.slot.1])[cell.slot.2.1])[cell.slot.2.2]

def set (slots : Slots) (cell : Cell) (record : Aggregate) : Slots :=
  let stripes := slots[cell.slot.1]
  let sizes := stripes[cell.slot.2.1]
  Vector.set slots cell.slot.1 (stripes.set cell.slot.2.1 (sizes.set cell.slot.2.2 record))

@[simp] theorem get_empty (cell : Cell) : empty.get cell = .empty := by
  simp [get, empty]

theorem get_set (slots : Slots) (cell other : Cell) (record : Aggregate) :
    (slots.set cell record).get other = if other = cell then record else slots.get other := by
  have same : other = cell ↔ cell.slot.1 = other.slot.1 ∧ cell.slot.2.1 = other.slot.2.1 ∧
      cell.slot.2.2 = other.slot.2.2 := by
    rw [← Cell.slot_injective.eq_iff, eq_comm, Prod.ext_iff, Prod.ext_iff]
  simp only [get, set, Fin.getElem_fin, Vector.getElem_set, Fin.val_inj]
  grind

end Slots

namespace Index

structure Progress where
  slots : Slots
  reported : List Anomaly

namespace Progress

variable {files : FileSystem} {catalog : Catalog} {dialect : Dialect} {cell : Cell}

def start : Progress := { slots := .empty, reported := [] }

def next (files : FileSystem) (catalog : Catalog) (dialect : Dialect) (progress : Progress)
    (cell : Cell) : Progress :=
  match catalog.outputs cell with
  | .error level => { progress with reported := progress.reported ++ [.missingCell cell level] }
  | .ok outputs =>
    let counted := progress.reported ++
      Aggregation.mismatch cell .catalogued cell.participants outputs.size
    let aggregation := dialect.aggregate files cell outputs
    { slots := progress.slots.set cell aggregation.aggregate
      reported := counted ++ aggregation.anomalies }

def after (files : FileSystem) (catalog : Catalog) (dialect : Dialect) (cells : List Cell) : Progress :=
  cells.foldl (next files catalog dialect) start

theorem after_concat (cells : List Cell) :
    after files catalog dialect (cells ++ [cell]) =
      (after files catalog dialect cells).next files catalog dialect cell := by
  rw [after, List.foldl_append]
  rfl

theorem reported_next (progress : Progress) :
    (progress.next files catalog dialect cell).reported =
      progress.reported ++ (catalog.aggregate files dialect cell).anomalies := by
  unfold next Catalog.aggregate
  cases catalog.outputs cell with
  | error level => rfl
  | ok outputs => exact List.append_assoc _ _ _

/-- A cell without files keeps what is in its slot, and no cell touches the slot of another. -/
theorem get_next (progress : Progress) (other : Cell) :
    (progress.next files catalog dialect cell).slots.get other =
      if other = cell ∧ (catalog.outputs cell).isOk then
        (catalog.aggregate files dialect cell).aggregate
      else progress.slots.get other := by
  unfold next Catalog.aggregate
  cases catalog.outputs cell with
  | error level => simp [Except.isOk, Except.toBool]
  | ok outputs => simp [Slots.get_set, Except.isOk, Except.toBool]

theorem reported_after (cells : List Cell) :
    (after files catalog dialect cells).reported =
      cells.flatMap fun cell => (catalog.aggregate files dialect cell).anomalies := by
  induction cells using List.reverseRecOn with
  | nil => rfl
  | append_singleton earlier cell ih => simp [after_concat, reported_next, ih]

theorem get_after (cells : List Cell) (other : Cell) :
    (after files catalog dialect cells).slots.get other =
      if other ∈ cells then (catalog.aggregate files dialect other).aggregate else .empty := by
  induction cells using List.reverseRecOn with
  | nil => exact Slots.get_empty other
  | append_singleton earlier cell ih =>
    rw [after_concat, get_next, ih]
    by_cases same : other = cell
    · subst same
      cases found : catalog.outputs other with
      | ok outputs => simp [Except.isOk, Except.toBool]
      | error level =>
        have nothing : (catalog.aggregate files dialect other).aggregate = .empty := by
          rw [Catalog.aggregate, found]
        simp [Except.isOk, Except.toBool, nothing]
    · simp [same]

end Progress

/-- An index is what the cells leave one after the other. -/
theorem ofCatalog_eq_after (files : FileSystem) (catalog : Catalog) (dialect : Dialect) :
    (ofCatalog files catalog dialect).2 = (Progress.after files catalog dialect Cell.all).reported ∧
      ∀ cell, (ofCatalog files catalog dialect).1.get cell =
        (Progress.after files catalog dialect Cell.all).slots.get cell := by
  refine ⟨?_, fun cell => ?_⟩
  · rw [Progress.reported_after, ofCatalog, List.flatMap_map]
  · rw [Progress.get_after, if_pos cell.mem_all, get_ofCatalog]

/-- What a cell brings to an index: the record in its slot, and the anomalies that come after those of
the cells before it. -/
structure Brings (files : FileSystem) (catalog : Catalog) (dialect : Dialect) (cell : Cell)
    (record : Aggregate) (reported : List Anomaly) : Prop where
  stored : (ofCatalog files catalog dialect).1.get cell = record
  added : ∀ progress : Progress,
    (progress.next files catalog dialect cell).reported = progress.reported ++ reported
  listed : ∃ earlier later rest, Cell.all = earlier ++ cell :: later ∧
    (ofCatalog files catalog dialect).2 =
      (Progress.after files catalog dialect earlier).reported ++ reported ++ rest

theorem brings_aggregate (files : FileSystem) (catalog : Catalog) (dialect : Dialect) (cell : Cell) :
    Brings files catalog dialect cell (catalog.aggregate files dialect cell).aggregate
      (catalog.aggregate files dialect cell).anomalies where
  stored := get_ofCatalog files catalog dialect cell
  added := Progress.reported_next
  listed := by
    obtain ⟨earlier, later, split⟩ := List.append_of_mem cell.mem_all
    refine ⟨earlier, later,
      later.flatMap fun cell => (catalog.aggregate files dialect cell).anomalies, split, ?_⟩
    rw [(ofCatalog_eq_after files catalog dialect).1, Progress.reported_after,
      Progress.reported_after, split, List.flatMap_append, List.flatMap_cons, List.append_assoc]

/-- A cell with the same files, of which those that the dialect reads have the same texts, brings the
same to both indexes, whatever else is in the catalogs and in the trees. -/
theorem ofCatalog_isolates {files others : FileSystem} {catalog other : Catalog} {dialect : Dialect}
    {cell : Cell} (same : catalog.outputs cell = other.outputs cell)
    (agree : ∀ outputs, catalog.outputs cell = .ok outputs → ∀ file ∈ dialect.sources outputs,
      files.readText file.path = others.readText file.path) :
    ∃ record reported, Brings files catalog dialect cell record reported ∧
      Brings others other dialect cell record reported := by
  refine ⟨_, _, brings_aggregate files catalog dialect cell, ?_⟩
  rw [Catalog.aggregate_congr same agree]
  exact brings_aggregate others other dialect cell

def writerPath : Path := Path.ofText "/out/2/2023-07-21/out-a-4-1M-2023-07-21-n1-0.txt.1"

def idlePath : Path := Path.ofText "/out/2/2023-07-21/out-a-4-1M-2023-07-21-n2-1.txt.1"

def oneWriter (others : List (String × Entry)) : Catalog :=
  .ofEntries (Path.ofText "/out") (("2", .directory [("2023-07-21", .directory
    [("out-a-4-1M-2023-07-21-n1-0.txt.1", .file 1),
      ("out-a-4-1M-2023-07-21-n2-1.txt.1", .file 0)])]) :: others)

theorem ofCatalog_isolates_oneWriter :
    let cell : Cell := { nodes := .n2, stripes := .four, size := .m1 }
    let before := (MemoryTree.empty.addFile writerPath "x").addFile idlePath ""
    let now := before.removeFile idlePath
    let catalog := oneWriter []
    let other := oneWriter [("4", .directory []), ("8", .file 3)]
    catalog ≠ other ∧ before.fileSystem.readText idlePath ≠ now.fileSystem.readText idlePath ∧
      catalog.outputs cell = other.outputs cell ∧
      ∃ record reported, Brings before.fileSystem catalog .ior cell record reported ∧
        Brings now.fileSystem other .ior cell record reported := by
  intro cell before now catalog other
  have same : catalog.outputs cell = other.outputs cell := by decide +kernel
  have sources : (catalog.outputs cell).map (fun outputs =>
      (Dialect.ior.sources outputs).map OutputFile.path) = .ok [writerPath] := by decide +kernel
  have texts : before.fileSystem.readText writerPath = now.fileSystem.readText writerPath := by
    decide +kernel
  refine ⟨by decide +kernel, by decide +kernel, same, ofCatalog_isolates same ?_⟩
  intro outputs found file member
  rw [found] at sources
  have here : file.path ∈ [writerPath] := Except.ok.inj sources ▸ List.mem_map_of_mem member
  rw [List.mem_singleton.mp here]
  exact texts

end Index

end Campaign
