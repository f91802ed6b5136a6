import Campaign.Index
import Campaign.MemoryTree
import Campaign.Proofs.Aggregations

namespace Campaign

theorem NodeCount.label_injective {left right : NodeCount} (same : left.label = right.label) :
    left = right := by
  cases left <;> cases right <;> first | rfl | exact absurd same (by decide)

theorem Cell.eq_of_labels {left right : Cell} (nodes : left.nodes.label = right.nodes.label)
    (counts : left.stripes.count = right.stripes.count)
    (sizes : left.size.label = right.size.label) : left = right := by
  have nodes := NodeCount.label_injective nodes
  have stripes := StripeCount.count_injective counts
  have size := StripeSize.label_injective sizes
  cases left
  cases right
  cases nodes
  cases stripes
  cases size
  rfl

namespace Catalog

variable {root : Path} {entries : List (String × Entry)}

/-- No two cells have files at one path. -/
theorem cell_of_same_path (listing : Throughout IsListing entries) {cell other : Cell}
    {file twin : OutputFile} (member : file ∈ ((ofEntries root entries).filesOf cell).values)
    (inOther : twin ∈ ((ofEntries root entries).filesOf other).values)
    (same : file.path.same twin.path = true) : cell = other := by
  have ordered := listing.mono fun _ listed => listed.ascending
  obtain ⟨name, found⟩ := Table.mem_values_iff.mp member
  obtain ⟨twinName, twinFound⟩ := Table.mem_values_iff.mp inOther
  rw [get?_filesOf, file?_eq_some_iff ordered] at found twinFound
  obtain ⟨date, inPlaces, recognized, path, counts, sizes, _⟩ := found
  obtain ⟨twinDate, twinPlace, twinRecognized, twinPath, twinCounts, twinSizes, _⟩ := twinFound
  rw [path, twinPath] at same
  obtain ⟨labels, _, rfl, _⟩ := Place.ofDate.inj (Place.eq_of_same_path listing inPlaces twinPlace same)
  have names : file.name = twin.name := Except.ok.inj (recognized.symm.trans twinRecognized)
  exact Cell.eq_of_labels labels (counts.symm.trans (names ▸ twinCounts))
    (sizes.symm.trans (names ▸ twinSizes))

theorem isViolation_of_mem_anomaliesOf {anomaly : Anomaly}
    (member : anomaly ∈ anomaliesOf root entries) : anomaly.isViolation = false := by
  rw [anomaliesOf_eq] at member
  obtain ⟨place, _, found⟩ := List.mem_filterMap.mp member
  unfold Place.anomaly? at found
  split at found
  · cases found
    rfl
  · cases found
    rfl
  · cases found
    rfl
  · split at found
    · cases found
    · cases found
      rfl
  · cases found

end Catalog

theorem Anomaly.Concerns.cell_unique {cell other : Cell} {outputs others : CellOutputs}
    {anomaly : Anomaly}
    (apart : ∀ file ∈ outputs.values, ∀ twin ∈ others.values,
      file.path.same twin.path = true → cell = other)
    (first : anomaly.Concerns cell outputs) (second : anomaly.Concerns other others) :
    cell = other := by
  cases anomaly with
  | missingCell _ _ => exact first.symm.trans second
  | countMismatch _ _ _ _ => exact first.symm.trans second
  | unusableFile path fault =>
    obtain ⟨file, inFiles, here⟩ := first
    obtain ⟨twin, inOthers, there⟩ := second
    refine apart file inFiles twin inOthers (Path.same_iff.mpr ?_)
    exact (Path.same_iff.mp here).symm.trans (Path.same_iff.mp there)
  | unrecognizedName _ => exact first.elim
  | unexpectedEntry _ _ => exact first.elim
  | vanishedEntry _ _ => exact first.elim

namespace Catalog

theorem entries_of_build {files : FileSystem} {root : Path} {catalog : Catalog}
    {before : List Anomaly} (built : build files root = .ok (catalog, before)) :
    ∃ entries, catalog = ofEntries root entries ∧ Throughout IsListing entries ∧
      ∀ anomaly ∈ before, anomaly.isViolation = false := by
  cases taken : Snapshot.take files root with
  | error fault => simp [build, taken, Except.map] at built
  | ok snapshot =>
    simp only [build, taken, Except.map, Except.ok.injEq, Prod.mk.injEq] at built
    obtain ⟨rfl, rfl⟩ := built
    obtain ⟨listing, routine⟩ := Snapshot.within_keeps (Snapshot.take_eq_ok_iff.mp taken)
    refine ⟨snapshot.entries, rfl, listing, fun anomaly member => ?_⟩
    rcases List.mem_append.mp member with walked | misplaced
    · exact routine anomaly walked
    · exact isViolation_of_mem_anomaliesOf misplaced

theorem build_of_listable {files : FileSystem} {root : Path} {listed : List Path}
    (listable : files.list root = .ok listed) :
    ∃ catalog before, build files root = .ok (catalog, before) := by
  obtain ⟨snapshot, taken⟩ := Snapshot.take_of_listable listable
  refine ⟨ofEntries root snapshot.entries, snapshot.anomalies ++ anomaliesOf root snapshot.entries,
    ?_⟩
  rw [build, taken]
  rfl

theorem listable_of_build {files : FileSystem} {root : Path} {catalog : Catalog}
    {before : List Anomaly} (built : build files root = .ok (catalog, before)) :
    ∃ listed, files.list root = .ok listed := by
  cases listing : files.list root with
  | ok listed => exact ⟨listed, rfl⟩
  | error fault =>
    have failed := Snapshot.take_eq_error_iff.mpr ⟨fault, listing, rfl⟩
    rw [build, failed] at built
    cases built

end Catalog

namespace Index

theorem build_of_catalog {files : FileSystem} {root : Path} {dialect : Dialect} {catalog : Catalog}
    {before : List Anomaly} (built : Catalog.build files root = .ok (catalog, before)) :
    build files root dialect =
      .ok ((ofCatalog files catalog dialect).1,
        before ++ (ofCatalog files catalog dialect).2) := by
  rw [build, built]
  rfl

theorem catalog_of_build {files : FileSystem} {root : Path} {dialect : Dialect} {index : Index}
    {anomalies : List Anomaly} (built : build files root dialect = .ok (index, anomalies)) :
    ∃ catalog before, Catalog.build files root = .ok (catalog, before) ∧
      index = (ofCatalog files catalog dialect).1 ∧
      anomalies = before ++ (ofCatalog files catalog dialect).2 := by
  cases catalogued : Catalog.build files root with
  | error fault =>
    rw [build, catalogued] at built
    cases built
  | ok found =>
    obtain ⟨catalog, before⟩ := found
    rw [build_of_catalog catalogued] at built
    obtain ⟨rfl, rfl⟩ := Prod.mk.inj (Except.ok.inj built)
    exact ⟨catalog, before, rfl, rfl, rfl⟩

theorem mem_anomalies_ofCatalog {files : FileSystem} {catalog : Catalog} {dialect : Dialect}
    {anomaly : Anomaly} :
    anomaly ∈ (ofCatalog files catalog dialect).2 ↔
      ∃ cell, anomaly ∈ (catalog.aggregate files dialect cell).anomalies := by
  simp only [ofCatalog, List.mem_flatMap, List.mem_map]
  constructor
  · intro given
    obtain ⟨_, ⟨cell, _, rfl⟩, member⟩ := given
    exact ⟨cell, member⟩
  · intro given
    obtain ⟨cell, member⟩ := given
    exact ⟨_, ⟨cell, cell.mem_all, rfl⟩, member⟩

/-- The violations that concern a cell are those of its own aggregation. -/
theorem violations_concerning_iff (files : FileSystem) (root : Path) (dialect : Dialect)
    {entries : List (String × Entry)} {before : List Anomaly}
    (listing : Throughout IsListing entries)
    (routine : ∀ anomaly ∈ before, anomaly.isViolation = false) (cell : Cell) (anomaly : Anomaly) :
    (anomaly ∈ violations (before ++
          (ofCatalog files (Catalog.ofEntries root entries) dialect).2) ∧
        anomaly.Concerns cell ((Catalog.ofEntries root entries).filesOf cell)) ↔
      anomaly ∈ ((Catalog.ofEntries root entries).aggregate files dialect cell).anomalies := by
  rw [violations, List.mem_filter, List.mem_append, mem_anomalies_ofCatalog]
  constructor
  · intro given
    obtain ⟨⟨walked | ⟨other, member⟩, violation⟩, concerned⟩ := given
    · exact absurd violation (by rw [routine anomaly walked]; exact Bool.false_ne_true)
    · have own := (Catalog.concerns_of_mem_aggregate member).2
      obtain rfl : cell = other := concerned.cell_unique
        (fun _ inFiles _ inOthers => Catalog.cell_of_same_path listing inFiles inOthers) own
      exact member
  · intro member
    obtain ⟨violation, concerned⟩ := Catalog.concerns_of_mem_aggregate member
    exact ⟨⟨Or.inr ⟨cell, member⟩, violation⟩, concerned⟩

theorem unconcerned_iff {files : FileSystem} {root : Path} {dialect : Dialect} {catalog : Catalog}
    {before : List Anomaly} (catalogued : Catalog.build files root = .ok (catalog, before))
    (cell : Cell) :
    (∀ anomaly ∈ violations (before ++ (ofCatalog files catalog dialect).2),
        ¬ anomaly.Concerns cell (catalog.filesOf cell)) ↔
      Complete files dialect cell (catalog.filesOf cell) := by
  obtain ⟨entries, rfl, listing, routine⟩ := Catalog.entries_of_build catalogued
  rw [← Catalog.aggregate_silent_iff, List.eq_nil_iff_forall_not_mem]
  refine forall_congr' fun anomaly => ?_
  rw [← violations_concerning_iff files root dialect listing routine cell anomaly, not_and]

theorem exists_concerning {anomalies : List Anomaly} {cell : Cell} {outputs : CellOutputs}
    {complete : Prop}
    (exact : (∀ anomaly ∈ anomalies, ¬ anomaly.Concerns cell outputs) ↔ complete)
    (lacking : ¬ complete) : ∃ anomaly ∈ anomalies, anomaly.Concerns cell outputs := by
  apply Classical.byContradiction
  intro nothing
  apply lacking
  rw [← exact]
  intro anomaly member concerned
  exact nothing ⟨anomaly, member, concerned⟩

/-- The anomalies of an index tell for each cell whether its files are complete, and a cell that is
left empty or is summed over other than its participants is pointed at. -/
theorem build_diagnoses {files : FileSystem} {root : Path} {listed : List Path}
    (listable : files.list root = .ok listed) (dialect : Dialect) :
    ∃ catalog before index anomalies,
      Catalog.build files root = .ok (catalog, before) ∧
      build files root dialect = .ok (index, anomalies) ∧
      ∀ cell,
        ((∀ anomaly ∈ violations anomalies, ¬ anomaly.Concerns cell (catalog.filesOf cell)) ↔
          Complete files dialect cell (catalog.filesOf cell)) ∧
        (Complete files dialect cell (catalog.filesOf cell) →
          match dialect with
          | .lsm => ∃ record, index.get cell = .summed record ∧
              record.participants = cell.participants
          | .ior => ∃ writer record,
              (catalog.filesOf cell).values.filter (fun file => 0 < file.size) = [writer] ∧
              Dialect.ior.readReport files writer.path = .ok record ∧
              index.get cell = .single record) ∧
        ((index.get cell = .empty ∨ ∃ record, index.get cell = .summed record ∧
            record.participants ≠ cell.participants) →
          ∃ anomaly ∈ violations anomalies, anomaly.Concerns cell (catalog.filesOf cell)) := by
  obtain ⟨catalog, before, catalogued⟩ := Catalog.build_of_listable listable
  refine ⟨catalog, before, _, _, catalogued, build_of_catalog catalogued, fun cell => ?_⟩
  have exact := @unconcerned_iff files root dialect catalog before catalogued cell
  rw [get_ofCatalog]
  refine ⟨exact, ?_, ?_⟩
  · intro complete
    have held := Catalog.aggregate_of_complete complete
    cases dialect <;> exact held
  · intro lacking
    apply exists_concerning exact
    intro complete
    have held := Catalog.aggregate_of_complete complete
    cases dialect with
    | lsm =>
      obtain ⟨record, same, counted⟩ := held
      rw [same] at lacking
      rcases lacking with absurdly | ⟨other, same, differs⟩
      · cases absurdly
      · cases same
        exact differs counted
    | ior =>
      obtain ⟨_, record, _, _, same⟩ := held
      rw [same] at lacking
      rcases lacking with absurdly | ⟨other, absurdly, _⟩
      · cases absurdly
      · cases absurdly

def columns : String :=
  "access,max(MiB)/s,min(MiB/s),mean(MiB/s),total(MiB),total(Ops),iteration\n"

def nodeReport : String :=
  "WRITE\n" ++ columns ++ "write,1,1,1,1,1,1\n" ++ "READ\n" ++ columns ++ "read,2,2,2,2,2,1\n"

theorem yieldsTotals_nodeReport {files : FileSystem} {file : OutputFile}
    (text : files.readText file.path = .ok nodeReport) : YieldsTotals files file := by
  have good : ((Dialect.lsm.parse nodeReport.toList).bind Lsm.nodeTotals).isOk = true := by
    -- To take a text apart is slow, so its characters are put in its place first.
    simp only [nodeReport, columns, String.toList_append]
    rw [String.toList_ofList, String.toList_ofList, String.toList_ofList, String.toList_ofList,
      String.toList_ofList]
    decide +kernel
  have read : Aggregation.nodeTotals files file.path =
      (Dialect.lsm.parse nodeReport.toList).bind Lsm.nodeTotals := by
    rw [Aggregation.nodeTotals, Dialect.readReport, text]
    rfl
  cases totals : Aggregation.nodeTotals files file.path with
  | error fault =>
    rw [← read, totals] at good
    cases good
  | ok node =>
    obtain ⟨record, parsed, both⟩ := Aggregation.nodeTotals_eq_ok_iff.mp totals
    exact ⟨record, parsed, fun op => ⟨_, both op⟩⟩

def jobReport : String :=
  "Summary of all tests:\nOperation Max(MiB) Min(MiB) Mean(MiB)\nwrite 3 1 2\nread 6 4 5\n"

/-- Two nodes with a report each, two of which one has left the report to the other, and two of
which one is missing. -/
def mixedReports : MemoryTree :=
  let date := Path.ofText "out/2/2023-07-21"
  ((((MemoryTree.empty.addFile (date.join "out-a-4-1M-2023-07-21-n-0.t.1") nodeReport).addFile
    (date.join "out-a-4-1M-2023-07-21-n-1.t.1") nodeReport).addFile
    (date.join "out-a-4-8M-2023-07-21-n-0.t.1") jobReport).addFile
    (date.join "out-a-4-8M-2023-07-21-n-1.t.1") "").addFile
    (date.join "out-a-16-1M-2023-07-21-n-0.t.1") nodeReport

def twoReportsCell : Cell := { nodes := .n2, stripes := .four, size := .m1 }

def oneWriterCell : Cell := { nodes := .n2, stripes := .four, size := .m8 }

def halfReportedCell : Cell := { nodes := .n2, stripes := .sixteen, size := .m1 }

def contents (files : FileSystem) (outputs : CellOutputs) : List (Bool × Except Fault String) :=
  outputs.values.map fun file => (decide (0 < file.size), files.readText file.path)

theorem length_contents (files : FileSystem) (outputs : CellOutputs) :
    (contents files outputs).length = outputs.size := by
  simp [contents, Table.values, Table.size]

theorem mem_contents (files : FileSystem) {outputs : CellOutputs} {file : OutputFile}
    (member : file ∈ outputs.values) :
    (decide (0 < file.size), files.readText file.path) ∈ contents files outputs :=
  List.mem_map_of_mem member

theorem build_mixedReports :
    ∃ catalog before,
      Catalog.build mixedReports.fileSystem (Path.ofText "out") = .ok (catalog, before) ∧
      contents mixedReports.fileSystem (catalog.filesOf twoReportsCell) =
        List.replicate 2 (true, .ok nodeReport) ∧
      contents mixedReports.fileSystem (catalog.filesOf oneWriterCell) =
        [(true, .ok jobReport), (false, .ok "")] ∧
      contents mixedReports.fileSystem (catalog.filesOf halfReportedCell) =
        List.replicate 1 (true, .ok nodeReport) := by
  have held : (Catalog.build mixedReports.fileSystem (Path.ofText "out")).toOption.map
      (fun built => [twoReportsCell, oneWriterCell, halfReportedCell].map fun cell =>
        contents mixedReports.fileSystem (built.1.filesOf cell)) =
      some [[(true, .ok nodeReport), (true, .ok nodeReport)],
        [(true, .ok jobReport), (false, .ok "")], [(true, .ok nodeReport)]] := by
    decide +kernel
  cases catalogued : Catalog.build mixedReports.fileSystem (Path.ofText "out") with
  | error fault =>
    rw [catalogued] at held
    cases held
  | ok built =>
    rw [catalogued] at held
    simp only [Except.toOption, Option.map_some, List.map_cons, List.map_nil, Option.some.injEq,
      List.cons.injEq, and_true] at held
    exact ⟨built.1, built.2, rfl, held⟩

theorem yieldsTotals_of_contents {files : FileSystem} {outputs : CellOutputs} {count : Nat}
    (held : contents files outputs = List.replicate count (true, .ok nodeReport)) :
    outputs.size = count ∧ ∀ file ∈ outputs.values, YieldsTotals files file ∧ 0 < file.size := by
  constructor
  · rw [← length_contents files, held, List.length_replicate]
  · intro file member
    have listed := mem_contents files member
    rw [held] at listed
    obtain ⟨given, text⟩ := Prod.mk.inj (List.eq_of_mem_replicate listed)
    exact ⟨yieldsTotals_nodeReport text, of_decide_eq_true given⟩

theorem complete_of_nodeReports {files : FileSystem} {outputs : CellOutputs}
    (held : contents files outputs = List.replicate 2 (true, .ok nodeReport)) :
    Complete files .lsm twoReportsCell outputs ∧ ¬ Complete files .ior twoReportsCell outputs := by
  obtain ⟨two, reported⟩ := yieldsTotals_of_contents held
  refine ⟨⟨two, fun file member => (reported file member).1⟩, ?_⟩
  intro complete
  obtain ⟨writer, _, writers, _⟩ := complete.2
  have all : outputs.values.filter (fun file => decide (0 < file.size)) = outputs.values :=
    List.filter_eq_self.mpr fun file member => decide_eq_true (reported file member).2
  have only : outputs.size = 1 := by
    rw [← length_contents files, contents, ← all, writers]
    rfl
  omega

theorem complete_of_jobReport {files : FileSystem} {outputs : CellOutputs}
    (held : contents files outputs = [(true, .ok jobReport), (false, .ok "")]) :
    Complete files .ior oneWriterCell outputs ∧ ¬ Complete files .lsm oneWriterCell outputs := by
  have parsed : (Dialect.ior.parse jobReport.toList).isOk = true := by
    rw [jobReport, String.toList_ofList]
    decide +kernel
  obtain ⟨writer, others, values, same, rest⟩ := List.map_eq_cons_iff.mp held
  obtain ⟨silent, none, rfl, alike, nothing⟩ := List.map_eq_cons_iff.mp rest
  obtain rfl := List.map_eq_nil_iff.mp nothing
  obtain ⟨some, text⟩ := Prod.mk.inj same
  obtain ⟨empty, noText⟩ := Prod.mk.inj alike
  have two : outputs.size = 2 := by
    rw [← length_contents files, held]
    rfl
  constructor
  · cases report : Dialect.ior.parse jobReport.toList with
    | error fault =>
      rw [report] at parsed
      cases parsed
    | ok record =>
      refine ⟨two, writer, record, ?_, ?_⟩
      · rw [values]
        simp only [List.filter_cons, some, empty, if_true, Bool.false_eq_true, if_false,
          List.filter_nil]
      · rw [Dialect.readReport, text]
        exact report
  · intro complete
    obtain ⟨record, read, _⟩ := complete.2 silent (by simp [values])
    rw [Dialect.readReport, noText] at read
    cases read

theorem build_diagnoses_mixedReports :
    ∃ listed catalog before,
      mixedReports.fileSystem.list (Path.ofText "out") = .ok listed ∧
      Catalog.build mixedReports.fileSystem (Path.ofText "out") = .ok (catalog, before) ∧
      (∃ index anomalies,
        build mixedReports.fileSystem (Path.ofText "out") .lsm = .ok (index, anomalies) ∧
        (∀ anomaly ∈ violations anomalies,
          ¬ anomaly.Concerns twoReportsCell (catalog.filesOf twoReportsCell)) ∧
        (∃ record, index.get twoReportsCell = .summed record ∧ record.participants = 2) ∧
        (∃ record, index.get halfReportedCell = .summed record ∧ record.participants = 1) ∧
        (∃ anomaly ∈ violations anomalies,
          anomaly.Concerns halfReportedCell (catalog.filesOf halfReportedCell)) ∧
        ∃ anomaly ∈ violations anomalies,
          anomaly.Concerns oneWriterCell (catalog.filesOf oneWriterCell)) ∧
      ∃ index anomalies,
        build mixedReports.fileSystem (Path.ofText "out") .ior = .ok (index, anomalies) ∧
        (∀ anomaly ∈ violations anomalies,
          ¬ anomaly.Concerns oneWriterCell (catalog.filesOf oneWriterCell)) ∧
        (∃ record, index.get oneWriterCell = .single record) ∧
        ∃ anomaly ∈ violations anomalies,
          anomaly.Concerns twoReportsCell (catalog.filesOf twoReportsCell) := by
  obtain ⟨catalog, before, catalogued, both, one, half⟩ := build_mixedReports
  obtain ⟨listed, listable⟩ := Catalog.listable_of_build catalogued
  obtain ⟨single, alone⟩ := yieldsTotals_of_contents half
  obtain ⟨shared, notWritten⟩ := complete_of_nodeReports both
  obtain ⟨written, notShared⟩ := complete_of_jobReport one
  refine ⟨listed, catalog, before, listable, catalogued, ?_, ?_⟩
  · obtain ⟨_, _, index, anomalies, again, built, diagnosed⟩ := build_diagnoses listable .lsm
    obtain ⟨rfl, rfl⟩ := Prod.mk.inj (Except.ok.inj (catalogued.symm.trans again))
    obtain ⟨record, summed, short⟩ := Aggregation.ofNodes_of_yields
      (by rw [single]; decide) fun file member => (alone file member).1
    have held : index.get halfReportedCell = .summed record := by
      rw [build_of_catalog catalogued] at built
      obtain ⟨rfl, rfl⟩ := Prod.mk.inj (Except.ok.inj built)
      rw [get_ofCatalog, Catalog.aggregate_aggregate]
      exact summed
    refine ⟨index, anomalies, built, (diagnosed twoReportsCell).1.mpr shared,
      (diagnosed twoReportsCell).2.1 shared, ⟨record, held, short.trans single⟩, ?_,
      exists_concerning (diagnosed oneWriterCell).1 notShared⟩
    apply (diagnosed halfReportedCell).2.2
    refine Or.inr ⟨record, held, ?_⟩
    rw [short, single]
    decide
  · obtain ⟨_, _, index, anomalies, again, built, diagnosed⟩ := build_diagnoses listable .ior
    obtain ⟨rfl, rfl⟩ := Prod.mk.inj (Except.ok.inj (catalogued.symm.trans again))
    obtain ⟨_, record, _, _, held⟩ := (diagnosed oneWriterCell).2.1 written
    exact ⟨index, anomalies, built, (diagnosed oneWriterCell).1.mpr written, ⟨record, held⟩,
      exists_concerning (diagnosed twoReportsCell).1 notWritten⟩

end Index

end Campaign
