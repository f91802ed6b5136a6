import Campaign.Proofs.Participants
import Campaign.Proofs.SampleNames
import Campaign.Proofs.StoredFiles
import Campaign.Proofs.WrittenReports
import Mathlib.Data.List.ProdSigma

namespace Campaign

open MemoryTree

theorem Path.trail_ne_nil {path : Path} (given : path.text ≠ "") : path.trail ≠ [] := by
  have text : path.text.toList ≠ [] := fun empty => given (String.toList_inj.mp empty)
  rw [path.trail_eq]
  cases pieces : path.text.toList.splitOn '/' with
  | nil => exact absurd pieces (List.splitOn_ne_nil _ _)
  | cons first rest =>
    have some : ∃ step, firstComponent? rest.isEmpty first = some step := by
      by_cases empty : first = []
      · have more : rest.isEmpty = false := by
          rw [List.isEmpty_eq_false_iff]
          intro alone
          rw [empty, alone] at pieces
          have joined : ['/'].intercalate (path.text.toList.splitOn '/') = path.text.toList :=
            List.intercalate_splitOn '/'
          rw [pieces] at joined
          exact text joined.symm
        exact ⟨.root, by rw [more, empty]; rfl⟩
      · obtain ⟨step, found, _⟩ := firstComponent?_ne_root empty rest.isEmpty
        exact ⟨step, found⟩
    obtain ⟨step, found⟩ := some
    simp [trailOfPieces, found]

theorem isPlain_label (nodes : NodeCount) : IsPlain nodes.label := by
  cases nodes <;> exact ⟨by decide, by decide, by decide, by decide⟩

namespace Sample

theorem isPlain_fileName {label : String} (labelled : RunName.isLabel label.toList = true)
    (cell : Cell) (rank : Nat) : IsPlain (fileName label cell rank) := by
  have longer : ∀ text : String, text.toList.length < 4 → fileName label cell rank ≠ text := by
    intro text short same
    rw [← same] at short
    unfold fileName RunName.text at short
    simp only [String.toList_append, List.length_append] at short
    have lead : "out-".toList.length = 4 := by decide
    omega
  have noSlash : ∀ n, '/' ∉ (Text.decimal n).toList := by
    intro n member
    rw [Text.decimal, String.toList_ofList] at member
    exact absurd (Text.isDigit_of_mem_digits member) (by decide)
  have inLabel : '/' ∉ label.toList := by
    intro member
    rcases RunName.isLabel_iff.mp labelled _ member with letter | dash
    · exact absurd letter (by decide)
    · exact absurd dash (by decide)
  have inSize : '/' ∉ cell.size.label.toList := by cases cell.size <;> decide
  refine ⟨longer "" (by decide), ?_, longer "." (by decide), longer ".." (by decide)⟩
  unfold fileName RunName.text
  dsimp only
  simp only [String.toList_append, List.mem_append, noSlash, inLabel, inSize]
  decide

def place (root : Path) (date label : String) (cell : Cell) (rank : Nat) : Path :=
  ((root.join cell.nodes.label).join date).join (fileName label cell rank)

def slots : List (Σ _ : Cell, Nat) := Cell.all.sigma fun cell => List.range cell.participants

def files (root : Path) (date label : String) (report : Cell → Nat → String) :
    List (Path × String) :=
  slots.map fun slot => (place root date label slot.1 slot.2, report slot.1 slot.2)

theorem mem_slots {slot : Σ _ : Cell, Nat} : slot ∈ slots ↔ slot.2 < slot.1.participants := by
  obtain ⟨cell, rank⟩ := slot
  rw [slots, List.mem_sigma, List.mem_range]
  exact and_iff_right cell.mem_all

theorem nodup_slots : slots.Nodup :=
  List.Nodup.sigma (by decide) fun _ => List.nodup_range

section

variable {root : Path} {date label : String} {report : Cell → Nat → String}

theorem tree_eq_foldl :
    tree root date label Cell.all report =
      (files root date label report).foldl (fun tree file => tree.addFile file.1 file.2) .empty := by
  unfold files slots List.sigma
  rw [List.foldl_map, List.foldl_flatMap]
  simp only [List.foldl_map]
  rfl

theorem mem_files {file : Path × String} :
    file ∈ files root date label report ↔ ∃ cell rank, rank < cell.participants ∧
      file = (place root date label cell rank, report cell rank) := by
  unfold files
  rw [List.mem_map]
  constructor
  · intro given
    obtain ⟨slot, member, rfl⟩ := given
    exact ⟨slot.1, slot.2, mem_slots.mp member, rfl⟩
  · intro given
    obtain ⟨cell, rank, small, rfl⟩ := given
    exact ⟨⟨cell, rank⟩, mem_slots.mpr small, rfl⟩

theorem rank_small {cell : Cell} {rank : Nat} (within : rank < cell.participants) :
    rank < Text.countLimit := by
  have few := (cell_small cell).2
  have large : 48 < Text.countLimit := by decide
  omega

def outputFile (root : Path) (date label : String) (report : Cell → Nat → String) (cell : Cell)
    (rank : Nat) : OutputFile :=
  { size := (report cell rank).utf8ByteSize
    path := place root date label cell rank
    name := runName label cell rank }

theorem outputFile_path (root : Path) (date label : String) (report : Cell → Nat → String)
    (cell : Cell) (rank : Nat) :
    (outputFile root date label report cell rank).path = place root date label cell rank := by
  simp only [outputFile]

variable (plain : IsPlain date) (labelled : RunName.isLabel label.toList = true)

include plain labelled

theorem trail_place (cell : Cell) (rank : Nat) :
    (place root date label cell rank).trail =
      stepsTo root cell.nodes.label date (fileName label cell rank) := by
  rw [place, Path.trail_join _ (isPlain_fileName labelled cell rank), Path.trail_join _ plain,
    Path.trail_join _ (isPlain_label cell.nodes)]
  rfl

theorem slot_unique {cell other : Cell} {rank otherRank : Nat} (within : rank < cell.participants)
    (otherWithin : otherRank < other.participants)
    (same : (place root date label cell rank).trail =
      (place root date label other otherRank).trail) : cell = other ∧ rank = otherRank := by
  rw [trail_place plain labelled, trail_place plain labelled] at same
  simp only [stepsTo, List.cons.injEq, Component.name.injEq, and_true] at same
  obtain ⟨counts, sizes, ranks⟩ :=
    fileName_injective cell labelled (rank_small within) (rank_small otherWithin) same.1
  exact ⟨Cell.eq_of_labels same.2.2 counts sizes, ranks⟩

theorem stores :
    (tree root date label Cell.all report).Stores (files root date label report) := by
  rw [tree_eq_foldl]
  apply stores_foldl
  unfold files
  rw [List.map_map]
  refine nodup_slots.map_on fun slot member other inSlots same => ?_
  dsimp only [Function.comp_apply] at same
  obtain ⟨cells, ranks⟩ := slot_unique plain labelled (mem_slots.mp member) (mem_slots.mp inSlots) same
  exact Sigma.ext cells (heq_of_eq ranks)

theorem hasFile_iff {nodes day name content : String} :
    (tree root date label Cell.all report).HasFile (stepsTo root nodes day name) content ↔
      ∃ cell rank, rank < cell.participants ∧ nodes = cell.nodes.label ∧ day = date ∧
        name = fileName label cell rank ∧ content = report cell rank := by
  rw [(stores plain labelled).hasFile_iff]
  constructor
  · intro given
    obtain ⟨file, known, steps, rfl⟩ := given
    obtain ⟨cell, rank, within, rfl⟩ := mem_files.mp known
    rw [trail_place plain labelled] at steps
    simp only [stepsTo, List.cons.injEq, Component.name.injEq, and_true] at steps
    exact ⟨cell, rank, within, steps.2.2.symm, steps.2.1.symm, steps.1.symm, rfl⟩
  · intro given
    obtain ⟨cell, rank, within, rfl, rfl, rfl, rfl⟩ := given
    refine ⟨_, mem_files.mpr ⟨cell, rank, within, rfl⟩, ?_, rfl⟩
    dsimp only
    exact trail_place plain labelled cell rank

theorem length_trail {file : Path × String} (known : file ∈ files root date label report) :
    file.1.trail.length = root.trail.length + 3 := by
  obtain ⟨cell, rank, _, rfl⟩ := mem_files.mp known
  rw [trail_place plain labelled]
  rfl

theorem belongs {cell : Cell} {rank : Nat} (within : rank < cell.participants) :
    (tree root date label Cell.all report).Belongs root cell date (fileName label cell rank)
      (report cell rank) := by
  have stores : (tree root date label Cell.all report).Stores (files root date label report) :=
    stores plain labelled
  refine
    { stored := (hasFile_iff plain labelled).mpr ⟨cell, rank, within, rfl, rfl, rfl, rfl⟩
      classNoLink := stores.not_hasLink _
      dateNoLink := stores.not_hasLink _
      noDirectory := fun there => ?_
      named := ⟨_, recognize_fileName cell labelled (rank_small within), rfl, rfl⟩ }
  obtain ⟨file, known, shorter⟩ := stores.shorter _ there
  rw [length_trail plain labelled known, stepsTo, List.length_cons, List.length_cons,
    List.length_cons] at shorter
  omega

theorem attributed_iff {cell : Cell} {name : String} {file : OutputFile} :
    (tree root date label Cell.all report).Attributed root cell name file ↔
      ∃ rank, rank < cell.participants ∧ name = fileName label cell rank ∧
        file = outputFile root date label report cell rank := by
  constructor
  · intro given
    obtain ⟨day, content, belongs, _, size, path, recognized⟩ := given
    obtain ⟨other, rank, within, nodes, rfl, rfl, rfl⟩ :=
      (hasFile_iff plain labelled).mp belongs.stored
    have known := recognize_fileName other labelled (rank_small within)
    obtain ⟨said, named, counts, sizes⟩ := belongs.named
    rw [known] at named recognized
    obtain rfl := Except.ok.inj named
    obtain rfl : cell = other := Cell.eq_of_labels nodes counts.symm sizes.symm
    refine ⟨rank, within, rfl, ?_⟩
    rw [OutputFile.mk.injEq, outputFile_path, place]
    exact ⟨size, path, (Except.ok.inj recognized).symm⟩
  · intro given
    obtain ⟨rank, within, rfl, rfl⟩ := given
    refine ⟨date, _, belongs plain labelled within, ?_, rfl, ?_,
      recognize_fileName cell labelled (rank_small within)⟩
    · -- All files stand under one date, so that no later one takes the place.
      intro later other also less
      obtain ⟨_, _, _, _, rfl, _⟩ := (hasFile_iff plain labelled).mp also.stored
      exact String.lt_irrefl _ less
    · rw [outputFile_path, place]

theorem pairs_filesOf {entries : List (String × Entry)}
    (walked : (tree root date label Cell.all report).Walked root entries)
    (listing : Throughout IsListing entries) (cell : Cell) :
    ((Catalog.ofEntries root entries).filesOf cell).pairs =
      (List.range cell.participants).map fun rank =>
        (fileName label cell rank, outputFile root date label report cell rank) := by
  have closed := (stores plain labelled : (tree root date label Cell.all report).Stores _).closed
  have ordered := listing.mono fun _ listed => listed.ascending
  have ranks : Ascending ((List.range cell.participants).map fun rank =>
      (fileName label cell rank, outputFile root date label report cell rank)) :=
    List.pairwise_map.mpr (fileNames_ascending cell label (cell_small cell).2)
  apply ((Catalog.ofEntries root entries).filesOf cell).ascending.eq_of_lookup ranks
  intro name
  apply Option.ext
  intro file
  have held : ((Catalog.ofEntries root entries).filesOf cell).get? name = some file ↔
      (tree root date label Cell.all report).Attributed root cell name file :=
    walked.get?_filesOf_iff closed ordered
  rw [ranks.lookup_eq_some_iff, List.mem_map]
  refine held.trans ((attributed_iff plain labelled).trans ?_)
  simp only [List.mem_range, Prod.mk.injEq, eq_comm]

theorem catalog_build (given : root.text ≠ "") :
    ∃ catalog, Catalog.build (tree root date label Cell.all report).fileSystem root =
        .ok (catalog, []) ∧
      ∀ cell, (catalog.filesOf cell).values =
        (List.range cell.participants).map (outputFile root date label report cell) := by
  have stores : (tree root date label Cell.all report).Stores (files root date label report) :=
    stores plain labelled
  -- The root is a directory since the file of some rank stands below it.
  let first : Cell := { nodes := .n1, stripes := .four, size := .k64 }
  have directory : (tree root date label Cell.all report).isDirectory root = true :=
    stores.isDirectory (Path.trail_ne_nil given)
      (belongs plain labelled first.participants_pos).stored
  have deep : ∀ file ∈ files root date label report,
      file.1.trail.length = root.trail.length + 3 := fun _ => length_trail plain labelled
  have named : ∀ nodes day name content, (tree root date label Cell.all report).HasFile
      (stepsTo root nodes day name) content → ∃ runName, RunName.recognize name = .ok runName := by
    intro nodes day name content stored
    obtain ⟨cell, rank, within, _, _, rfl, _⟩ := (hasFile_iff plain labelled).mp stored
    exact ⟨_, recognize_fileName cell labelled (rank_small within)⟩
  obtain ⟨entries, walked, listing, built⟩ := stores.catalog_build directory deep named
  refine ⟨_, built, fun cell => ?_⟩
  rw [Table.values, pairs_filesOf plain labelled walked listing, List.map_map]
  rfl

theorem readText_place {cell : Cell} {rank : Nat} (within : rank < cell.participants) :
    (tree root date label Cell.all report).fileSystem.readText (place root date label cell rank) =
      .ok (report cell rank) :=
  (stores plain labelled).readText (mem_files.mpr ⟨cell, rank, within, rfl⟩)

end

end Sample

theorem Index.build_of_complete {files : FileSystem} {root : Path} {dialect : Dialect}
    {catalog : Catalog} (catalogued : Catalog.build files root = .ok (catalog, []))
    (complete : ∀ cell, Complete files dialect cell (catalog.filesOf cell)) :
    build files root dialect = .ok ((ofCatalog files catalog dialect).1, []) := by
  have silent : (ofCatalog files catalog dialect).2 = [] := by
    rw [List.eq_nil_iff_forall_not_mem]
    intro anomaly member
    obtain ⟨cell, noted⟩ := mem_anomalies_ofCatalog.mp member
    rw [Catalog.aggregate_silent_iff.mpr (complete cell)] at noted
    exact absurd noted List.not_mem_nil
  rw [build_of_catalog catalogued, silent]
  rfl

namespace Sample

def sumOver (count : Nat) (figure : Nat → Binary64) : Binary64 :=
  (List.range count).foldl (fun sum rank => sum + figure rank) .zero

/-- The totals of ranks as the texts of their figures read back; the number of iterations is that of
the last rank. -/
def totalsOver (count : Nat) (figures : Nat → Lsm.Figures) : Totals :=
  { max := sumOver count fun rank => (figures rank).max.reread 2
    min := sumOver count fun rank => (figures rank).min.reread 2
    mean := sumOver count fun rank => (figures rank).mean.reread 2
    mib := sumOver count fun rank => (figures rank).mib.reread 2
    ops := sumOver count fun rank => (figures rank).ops.reread 0
    iteration := (Binary64.ofCount (figures (count - 1)).iterations).toCount }

def share (figures : PerOperation Lsm.Figures) : PerOperation Totals :=
  { read := figures.read.reread, write := figures.write.reread }

theorem get_share (figures : PerOperation Lsm.Figures) (op : Operation) :
    (share figures).get op = (figures.get op).reread := by
  cases op <;> rfl

theorem sum_shares (count : Nat) (figures : Nat → PerOperation Lsm.Figures) (op : Operation) :
    Totals.sum (((List.range (count + 1)).map fun rank => share (figures rank)).map (·.get op)) =
      totalsOver (count + 1) fun rank => (figures rank).get op := by
  obtain ⟨reports, known⟩ : ∃ reports, reports =
      (List.range (count + 1)).map fun rank => ((figures rank).get op).reread := ⟨_, rfl⟩
  have shares : ((List.range (count + 1)).map fun rank => share (figures rank)).map (·.get op) =
      reports := by
    simp only [known, List.map_map, Function.comp_def, get_share]
  have last : reports.getLast? = some ((figures count).get op).reread := by
    rw [known, List.range_succ, List.map_append, List.map_singleton, List.getLast?_concat]
  rw [shares, Totals.sum, last, known]
  simp only [List.foldl_map]
  rfl

section

variable {files : FileSystem} {catalog : Catalog} {cell : Cell} {output : Nat → OutputFile}

theorem totals_of_values {figures : Nat → PerOperation Lsm.Figures}
    (values : (catalog.filesOf cell).values = (List.range cell.participants).map output)
    (read : ∀ rank < cell.participants,
      Aggregation.nodeTotals files (output rank).path = .ok (share (figures rank))) :
    Complete files .lsm cell (catalog.filesOf cell) ∧
      ∃ record, (catalog.aggregate files .lsm cell).aggregate = .summed record ∧
        record.participants = cell.participants ∧
        ∀ op, record.totals.get op = totalsOver cell.participants fun rank => (figures rank).get op := by
  have results : (catalog.filesOf cell).values.map (fun file =>
      Aggregation.nodeTotals files file.path) =
      ((List.range cell.participants).map fun rank => share (figures rank)).map .ok := by
    rw [values, List.map_map, List.map_map]
    apply List.map_congr_left
    intro rank within
    exact read rank (List.mem_range.mp within)
  have complete : Complete files .lsm cell (catalog.filesOf cell) := by
    refine ⟨?_, fun file member => ?_⟩
    · have lengths := congrArg List.length values
      simpa [Table.values, Table.size] using lengths
    · rw [values] at member
      obtain ⟨rank, within, rfl⟩ := List.mem_map.mp member
      obtain ⟨record, parsed, both⟩ :=
        Aggregation.nodeTotals_eq_ok_iff.mp (read rank (List.mem_range.mp within))
      exact ⟨record, parsed, fun op => ⟨_, both op⟩⟩
  refine ⟨complete, ?_⟩
  obtain ⟨shares, record, same, summed, counted, totals⟩ := Catalog.sums_of_complete complete
  have known : shares = (List.range cell.participants).map fun rank => share (figures rank) := by
    rw [results] at same
    exact ((List.map_inj_right fun _ _ => Except.ok.inj).mp same).symm
  refine ⟨record, summed, counted, fun op => ?_⟩
  obtain ⟨count, some⟩ := Nat.exists_eq_add_one.mpr cell.participants_pos
  rw [totals, known, some]
  exact sum_shares count figures op

theorem record_of_values {record : RunRecord}
    (values : (catalog.filesOf cell).values = (List.range cell.participants).map output)
    (first : 0 < (output 0).size) (others : ∀ rank, (output (rank + 1)).size = 0)
    (read : Dialect.ior.readReport files (output 0).path = .ok record) :
    Complete files .ior cell (catalog.filesOf cell) ∧
      (catalog.aggregate files .ior cell).aggregate = .single record := by
  have single : (catalog.filesOf cell).values.filter (fun file => 0 < file.size) = [output 0] := by
    obtain ⟨count, some⟩ := Nat.exists_eq_add_one.mpr cell.participants_pos
    rw [values, some, List.range_succ_eq_map, List.map_cons, List.filter_cons_of_pos (by simpa using first),
      List.map_map]
    congr 1
    rw [List.filter_eq_nil_iff]
    intro file member
    obtain ⟨rank, _, rfl⟩ := List.mem_map.mp member
    simp [others]
  have lengths := congrArg List.length values
  refine ⟨⟨by simpa [Table.values, Table.size] using lengths, output 0, record, single, read⟩, ?_⟩
  rw [Catalog.aggregate_aggregate]
  exact Aggregation.ofWriter_aggregate single read

end

def nodeReports (runs : Cell → Nat → PerOperation Lsm.Figures) (cell : Cell) (rank : Nat) : String :=
  Lsm.report (runs cell rank).write (runs cell rank).read

def writerReports (jobs : Cell → PerOperation Ior.Figures) (cell : Cell) (rank : Nat) : String :=
  if rank = 0 then Ior.report (jobs cell).write (jobs cell).read else ""

section

variable {root : Path} {date label : String} (plain : IsPlain date)
  (labelled : RunName.isLabel label.toList = true)

include plain labelled

theorem nodeTotals_outputFile (runs : Cell → Nat → PerOperation Lsm.Figures) {cell : Cell}
    {rank : Nat} (within : rank < cell.participants) :
    Aggregation.nodeTotals (tree root date label Cell.all (nodeReports runs)).fileSystem
      (outputFile root date label (nodeReports runs) cell rank).path =
        .ok (share (runs cell rank)) := by
  obtain ⟨record, parsed, totals⟩ := Lsm.parse_report (runs cell rank)
  have text : (tree root date label Cell.all (nodeReports runs)).fileSystem.readText
      (outputFile root date label (nodeReports runs) cell rank).path =
        .ok (nodeReports runs cell rank) := by
    rw [outputFile_path]
    exact readText_place plain labelled within
  rw [Aggregation.nodeTotals_eq_ok_iff]
  refine ⟨record, ?_, fun op => ?_⟩
  · rw [Dialect.readReport, text]
    exact parsed
  · rw [get_share]
    exact totals op

theorem build_nodeReports (given : root.text ≠ "") (runs : Cell → Nat → PerOperation Lsm.Figures) :
    ∃ index, Index.build (tree root date label Cell.all (nodeReports runs)).fileSystem root .lsm =
        .ok (index, []) ∧
      ∀ cell, ∃ record, index.get cell = .summed record ∧
        record.participants = cell.participants ∧
        ∀ op, record.totals.get op =
          totalsOver cell.participants fun rank => (runs cell rank).get op := by
  obtain ⟨catalog, catalogued, values⟩ := catalog_build plain labelled given
  have cells := fun cell => totals_of_values (values cell) fun _ =>
    nodeTotals_outputFile plain labelled runs
  refine ⟨_, Index.build_of_complete catalogued fun cell => (cells cell).1, fun cell => ?_⟩
  rw [Index.get_ofCatalog]
  exact (cells cell).2

theorem build_writerReports (given : root.text ≠ "") (jobs : Cell → PerOperation Ior.Figures) :
    ∃ index, Index.build (tree root date label Cell.all (writerReports jobs)).fileSystem root .ior =
        .ok (index, []) ∧
      ∀ cell, ∃ record, index.get cell = .single record ∧
        ∀ op, record.number? op Ior.maxColumn = some (((jobs cell).get op).max.reread 2) ∧
          record.number? op Ior.minColumn = some (((jobs cell).get op).min.reread 2) ∧
          record.number? op Ior.meanColumn = some (((jobs cell).get op).mean.reread 2) := by
  obtain ⟨catalog, catalogued, values⟩ := catalog_build plain labelled given
  have cells : ∀ cell, ∃ record,
      (Complete (tree root date label Cell.all (writerReports jobs)).fileSystem .ior cell
          (catalog.filesOf cell) ∧
        (catalog.aggregate (tree root date label Cell.all (writerReports jobs)).fileSystem .ior
          cell).aggregate = .single record) ∧
      ∀ op, record.number? op Ior.maxColumn = some (((jobs cell).get op).max.reread 2) ∧
        record.number? op Ior.minColumn = some (((jobs cell).get op).min.reread 2) ∧
        record.number? op Ior.meanColumn = some (((jobs cell).get op).mean.reread 2) := by
    intro cell
    obtain ⟨record, parsed, columns⟩ := Ior.parse_report (jobs cell)
    have text : (tree root date label Cell.all (writerReports jobs)).fileSystem.readText
        (outputFile root date label (writerReports jobs) cell 0).path =
          .ok (writerReports jobs cell 0) := by
      rw [outputFile_path]
      exact readText_place plain labelled cell.participants_pos
    have size : 0 < (outputFile root date label (writerReports jobs) cell 0).size :=
      Nat.pos_of_ne_zero (mt String.utf8ByteSize_eq_zero_iff.mp (Ior.report_ne_empty (jobs cell)))
    refine ⟨record, record_of_values (values cell) size (fun _ => rfl) ?_, columns⟩
    rw [Dialect.readReport, text]
    exact parsed
  refine ⟨_, Index.build_of_complete catalogued fun cell => ?_, fun cell => ?_⟩
  · obtain ⟨_, ⟨complete, _⟩, _⟩ := cells cell
    exact complete
  · obtain ⟨record, ⟨_, single⟩, columns⟩ := cells cell
    exact ⟨record, (Index.get_ofCatalog _ _ _ _).trans single, columns⟩

end

/-- A campaign of written reports is read back whole. Where every node writes a report, each cell
holds the sums over its ranks, in their order, of the figures as their texts read; where the first
rank writes for all, each cell holds its figures. -/
theorem build_reads_back (root : Path) (date label : String) (given : root.text ≠ "")
    (plain : IsPlain date) (labelled : RunName.isLabel label.toList = true)
    (runs : Cell → Nat → PerOperation Lsm.Figures) (jobs : Cell → PerOperation Ior.Figures) :
    (∀ places (x : Binary64), Binary64.ofText? (x.fixedText places) = some (x.reread places)) ∧
    (∀ n, Binary64.ofText? (Text.digits n) = some (.ofCount n)) ∧
    (∃ index,
      Index.build (tree root date label Cell.all fun cell rank =>
          Lsm.report (runs cell rank).write (runs cell rank).read).fileSystem root .lsm =
        .ok (index, []) ∧
      ∀ cell, ∃ record, index.get cell = .summed record ∧
        record.participants = cell.participants ∧
        ∀ op, record.totals.get op =
          totalsOver cell.participants fun rank => (runs cell rank).get op) ∧
    ∃ index,
      Index.build (tree root date label Cell.all fun cell rank =>
          if rank = 0 then Ior.report (jobs cell).write (jobs cell).read else "").fileSystem root
          .ior =
        .ok (index, []) ∧
      ∀ cell, ∃ record, index.get cell = .single record ∧
        ∀ op, record.number? op Ior.maxColumn = some (((jobs cell).get op).max.reread 2) ∧
          record.number? op Ior.minColumn = some (((jobs cell).get op).min.reread 2) ∧
          record.number? op Ior.meanColumn = some (((jobs cell).get op).mean.reread 2) :=
  ⟨Binary64.ofText?_fixedText, Binary64.ofText?_digits,
    build_nodeReports plain labelled given runs, build_writerReports plain labelled given jobs⟩

theorem build_reads_back_lsm :
    (Path.ofText "/out").text ≠ "" ∧ IsPlain "2023-07-22" ∧ RunName.isLabel "lsm".toList = true ∧
      ∃ index, Index.build (lsm (Path.ofText "/out")).fileSystem (Path.ofText "/out") .lsm =
          .ok (index, []) ∧
        ∀ cell, ∃ record, index.get cell = .summed record ∧
          record.participants = cell.participants ∧
          ∀ op, record.totals.get op =
            totalsOver cell.participants fun rank => (nodeFigures cell rank).get op := by
  have given : (Path.ofText "/out").text ≠ "" := by decide
  have plain : IsPlain "2023-07-22" := ⟨by decide, by decide, by decide, by decide⟩
  have labelled : RunName.isLabel "lsm".toList = true := by decide
  obtain ⟨_, _, read, _⟩ := build_reads_back (Path.ofText "/out") "2023-07-22" "lsm" given plain
    labelled nodeFigures fun _ => { read := ⟨0, 0, 0⟩, write := ⟨0, 0, 0⟩ }
  exact ⟨given, plain, labelled, read⟩

end Sample

end Campaign
