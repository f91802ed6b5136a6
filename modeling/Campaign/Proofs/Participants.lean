import Campaign.Proofs.Diagnostics
import Mathlib.Data.List.Dedup

namespace Campaign

def CellOutputs.ranks (outputs : CellOutputs) : List Nat := outputs.values.map (·.name.rank)

/-- The aggregate of a cell takes each of its files in once, and there are as many as nodes report
for it. -/
structure CountsOnce (files : FileSystem) (cell : Cell) (outputs : CellOutputs)
    (aggregate : Aggregate) : Prop where
  sums : ∃ (shares : List (PerOperation Totals)) (record : JobTotals),
    outputs.values.map (fun file => Aggregation.nodeTotals files file.path) = shares.map .ok ∧
      aggregate = .summed record ∧ record.participants = cell.participants ∧
      ∀ op, record.totals.get op = .sum (shares.map (·.get op))
  size : outputs.size = cell.participants
  named : ∀ name file, outputs.get? name = some file →
    RunName.recognize name = .ok file.name ∧ file.name.stripeCount = cell.stripes.count ∧
      file.name.stripeSize = cell.size.label
  apart : ∀ name file twinName twin, outputs.get? name = some file →
    outputs.get? twinName = some twin → name ≠ twinName → file.path.same twin.path = false

theorem Aggregation.Readings.results_of_silent {α : Type} {readings : Readings α}
    (silent : readings.anomalies = []) : readings.map (·.2) = readings.usable.map .ok := by
  induction readings with
  | nil => rfl
  | cons head rest ih =>
    obtain ⟨path, result⟩ := head
    cases result with
    | ok value =>
      rw [anomalies_cons_ok] at silent
      rw [usable_cons_ok, List.map_cons, List.map_cons, ih silent]
    | error fault =>
      rw [anomalies_cons_error] at silent
      cases silent

theorem length_dedup_eq_iff {ranks : List Nat} {count : Nat} (counted : ranks.length = count) :
    ranks.dedup.length = count ↔ ranks.Nodup := by
  have part : ranks.dedup.Sublist ranks := List.dedup_sublist ranks
  rw [← counted, ← List.dedup_eq_self]
  exact ⟨part.eq_of_length, congrArg List.length⟩

theorem CellOutputs.length_ranks (outputs : CellOutputs) : outputs.ranks.length = outputs.size := by
  simp [CellOutputs.ranks, Table.values, Table.size]

theorem CountsOnce.length_dedup_ranks_iff {files : FileSystem} {cell : Cell} {outputs : CellOutputs}
    {aggregate : Aggregate} (once : CountsOnce files cell outputs aggregate) :
    outputs.ranks.dedup.length = cell.participants ↔ outputs.ranks.Nodup :=
  length_dedup_eq_iff (outputs.length_ranks.trans once.size)

theorem CountsOnce.rank_ne {files : FileSystem} {cell : Cell} {outputs : CellOutputs}
    {aggregate : Aggregate} (once : CountsOnce files cell outputs aggregate)
    {name twinName : String} {file twin : OutputFile} (found : outputs.get? name = some file)
    (twinFound : outputs.get? twinName = some twin) (different : name ≠ twinName)
    (written : file.name.text = name) (twinWritten : twin.name.text = twinName)
    (label : file.name.label = twin.name.label) (date : file.name.date = twin.name.date)
    (host : file.name.host = twin.name.host) (ext : file.name.ext = twin.name.ext)
    (sequence : file.name.sequence = twin.name.sequence) : file.name.rank ≠ twin.name.rank := by
  obtain ⟨_, counts, sizes⟩ := once.named name file found
  obtain ⟨_, twinCounts, twinSizes⟩ := once.named twinName twin twinFound
  intro rank
  apply different
  rw [← written, ← twinWritten]
  apply congrArg RunName.text
  rw [RunName.mk.injEq]
  exact ⟨label, counts.trans twinCounts.symm, sizes.trans twinSizes.symm, date, host, rank, ext,
    sequence⟩

namespace Catalog

variable {files : FileSystem} {root : Path} {entries : List (String × Entry)} {cell : Cell}

theorem sums_of_complete {catalog : Catalog}
    (complete : Complete files .lsm cell (catalog.filesOf cell)) :
    ∃ (shares : List (PerOperation Totals)) (record : JobTotals),
      (catalog.filesOf cell).values.map (fun file => Aggregation.nodeTotals files file.path) =
          shares.map .ok ∧
        (catalog.aggregate files .lsm cell).aggregate = .summed record ∧
        record.participants = cell.participants ∧
        ∀ op, record.totals.get op = .sum (shares.map (·.get op)) := by
  have silent := Aggregation.nodeReadings_silent_iff.mpr complete.2
  have shares := Aggregation.Readings.results_of_silent silent
  rw [Aggregation.nodeReadings, List.map_map] at shares
  obtain ⟨record, summed, counted⟩ := aggregate_of_complete complete
  -- As the cell is summed, the shares are not none, and the record is their sum.
  have whole := summed
  rw [aggregate_aggregate, Dialect.aggregate, Aggregation.ofNodes_aggregate] at whole
  split at whole
  · cases whole
  · cases whole
    exact ⟨_, _, shares, summed, counted, JobTotals.get_totals_ofNodes _⟩

theorem recognized_of_get? (ordered : Throughout Ascending entries) {name : String}
    {file : OutputFile} (found : ((ofEntries root entries).filesOf cell).get? name = some file) :
    RunName.recognize name = .ok file.name ∧ file.name.stripeCount = cell.stripes.count ∧
      file.name.stripeSize = cell.size.label := by
  rw [get?_filesOf, file?_eq_some_iff ordered] at found
  obtain ⟨_, _, recognized, _, counts, sizes, _⟩ := found
  exact ⟨recognized, counts, sizes⟩

theorem path_of_name_ne (listing : Throughout IsListing entries) {name twinName : String}
    {file twin : OutputFile}
    (found : ((ofEntries root entries).filesOf cell).get? name = some file)
    (twinFound : ((ofEntries root entries).filesOf cell).get? twinName = some twin)
    (different : name ≠ twinName) : file.path.same twin.path = false := by
  have ordered := listing.mono fun _ listed => listed.ascending
  rw [get?_filesOf, file?_eq_some_iff ordered] at found twinFound
  obtain ⟨_, inPlaces, _, path, _⟩ := found
  obtain ⟨_, twinPlace, _, twinPath, _⟩ := twinFound
  rw [← Bool.not_eq_true, path, twinPath]
  intro same
  have places := Place.eq_of_same_path listing inPlaces twinPlace same
  exact different (Place.ofDate.inj places).2.2.1

theorem countsOnce_of_complete {catalog : Catalog} {before : List Anomaly}
    (built : build files root = .ok (catalog, before))
    (complete : Complete files .lsm cell (catalog.filesOf cell)) :
    CountsOnce files cell (catalog.filesOf cell) (catalog.aggregate files .lsm cell).aggregate := by
  obtain ⟨entries, rfl, listing, _⟩ := entries_of_build built
  have ordered := listing.mono fun _ listed => listed.ascending
  exact {
    sums := sums_of_complete complete
    size := complete.1
    named := fun _ _ => recognized_of_get? ordered
    apart := fun _ _ _ _ => path_of_name_ne listing }

end Catalog

namespace Index

/-- A cell that no violation concerns sums as many files as it has nodes, each once. Nothing
compares their ranks, so that two of them may be of one node; names that are written alike but for
the rank have different ones. -/
theorem build_countsOnce {files : FileSystem} {root : Path} {index : Index}
    {anomalies : List Anomaly} (built : build files root .lsm = .ok (index, anomalies)) :
    ∃ catalog before, Catalog.build files root = .ok (catalog, before) ∧
      ∀ cell, (∀ anomaly ∈ violations anomalies,
          ¬ anomaly.Concerns cell (catalog.filesOf cell)) →
        CountsOnce files cell (catalog.filesOf cell) (index.get cell) ∧
        (∀ name file twinName twin, (catalog.filesOf cell).get? name = some file →
          (catalog.filesOf cell).get? twinName = some twin → name ≠ twinName →
          file.name.text = name → twin.name.text = twinName →
          file.name.label = twin.name.label → file.name.date = twin.name.date →
          file.name.host = twin.name.host → file.name.ext = twin.name.ext →
          file.name.sequence = twin.name.sequence → file.name.rank ≠ twin.name.rank) ∧
        ((catalog.filesOf cell).ranks.dedup.length = cell.participants ↔
          (catalog.filesOf cell).ranks.Nodup) := by
  obtain ⟨catalog, before, catalogued, rfl, rfl⟩ := catalog_of_build built
  refine ⟨catalog, before, catalogued, fun cell unconcerned => ?_⟩
  have complete := (unconcerned_iff catalogued cell).mp unconcerned
  rw [get_ofCatalog]
  have once := Catalog.countsOnce_of_complete catalogued complete
  exact ⟨once, fun _ _ _ _ => once.rank_ne, once.length_dedup_ranks_iff⟩

def twoReports (first second : String) : MemoryTree :=
  let date := Path.ofText "/out/2/2023-07-21"
  (MemoryTree.empty.addFile (date.join first) nodeReport).addFile (date.join second) nodeReport

theorem complete_twoReports (first second : String) (rank other : Nat)
    (held : (Catalog.build (twoReports first second).fileSystem (Path.ofText "/out")).toOption.map
      (fun built => ((built.1.filesOf twoReportsCell).ranks,
        contents (twoReports first second).fileSystem (built.1.filesOf twoReportsCell))) =
      some ([rank, other], List.replicate 2 (true, .ok nodeReport))) :
    ∃ catalog before,
      Catalog.build (twoReports first second).fileSystem (Path.ofText "/out") =
        .ok (catalog, before) ∧
      (catalog.filesOf twoReportsCell).ranks = [rank, other] ∧
      Complete (twoReports first second).fileSystem .lsm twoReportsCell
        (catalog.filesOf twoReportsCell) := by
  cases catalogued : Catalog.build (twoReports first second).fileSystem (Path.ofText "/out") with
  | error fault =>
    rw [catalogued] at held
    cases held
  | ok built =>
    obtain ⟨catalog, before⟩ := built
    rw [catalogued] at held
    obtain ⟨ranks, texts⟩ := Prod.mk.inj (Option.some.inj held)
    exact ⟨catalog, before, rfl, ranks, (complete_of_nodeReports texts).1⟩

def twoRanks : FileSystem :=
  (twoReports "out-a-4-1M-2023-07-21-n1-0.txt.1" "out-a-4-1M-2023-07-21-n2-1.txt.1").fileSystem

theorem build_countsOnce_twoRanks :
    ∃ catalog before index anomalies,
      Catalog.build twoRanks (Path.ofText "/out") = .ok (catalog, before) ∧
      build twoRanks (Path.ofText "/out") .lsm = .ok (index, anomalies) ∧
      (∀ anomaly ∈ violations anomalies,
        ¬ anomaly.Concerns twoReportsCell (catalog.filesOf twoReportsCell)) ∧
      CountsOnce twoRanks twoReportsCell (catalog.filesOf twoReportsCell)
        (index.get twoReportsCell) ∧
      (catalog.filesOf twoReportsCell).ranks.dedup.length = 2 := by
  obtain ⟨catalog, before, catalogued, ranks, complete⟩ :=
    complete_twoReports "out-a-4-1M-2023-07-21-n1-0.txt.1" "out-a-4-1M-2023-07-21-n2-1.txt.1" 0 1
      (by decide +kernel)
  have built : build twoRanks (Path.ofText "/out") .lsm = _ := build_of_catalog catalogued
  have unconcerned := (unconcerned_iff catalogued twoReportsCell).mpr complete
  obtain ⟨_, _, again, cells⟩ := build_countsOnce built
  obtain ⟨rfl, rfl⟩ := Prod.mk.inj (Except.ok.inj (catalogued.symm.trans again))
  obtain ⟨once, _, distinct⟩ := cells twoReportsCell unconcerned
  have apart : (catalog.filesOf twoReportsCell).ranks.Nodup := by
    rw [ranks]
    decide
  exact ⟨catalog, before, _, _, catalogued, built, unconcerned, once, distinct.mpr apart⟩

def sharedRank : FileSystem :=
  (twoReports "out-a-4-1M-2023-07-21-n1-0.txt.1" "out-a-4-1M-2023-07-21-n1-0.txt.2").fileSystem

/-- Two reports of one rank, told apart by their sequence numbers, also pass for two nodes. -/
theorem build_countsOnce_sharedRank :
    ∃ catalog before index anomalies,
      Catalog.build sharedRank (Path.ofText "/out") = .ok (catalog, before) ∧
      build sharedRank (Path.ofText "/out") .lsm = .ok (index, anomalies) ∧
      (∀ anomaly ∈ violations anomalies,
        ¬ anomaly.Concerns twoReportsCell (catalog.filesOf twoReportsCell)) ∧
      CountsOnce sharedRank twoReportsCell (catalog.filesOf twoReportsCell)
        (index.get twoReportsCell) ∧
      ¬ (catalog.filesOf twoReportsCell).ranks.Nodup := by
  obtain ⟨catalog, before, catalogued, ranks, complete⟩ :=
    complete_twoReports "out-a-4-1M-2023-07-21-n1-0.txt.1" "out-a-4-1M-2023-07-21-n1-0.txt.2" 0 0
      (by decide +kernel)
  refine ⟨catalog, before, _, _, catalogued, build_of_catalog catalogued,
    (unconcerned_iff catalogued twoReportsCell).mpr complete, ?_, ?_⟩
  · rw [get_ofCatalog]
    exact Catalog.countsOnce_of_complete catalogued complete
  · rw [ranks]
    decide

end Index

end Campaign
