import Campaign.Proofs.Aggregations

namespace Campaign

def Anomaly.isCountMismatch : Anomaly → Bool
  | .countMismatch _ _ _ _ => true
  | _ => false

namespace RunRecord

def figure (record : RunRecord) (op : Operation) (column : String) : Binary64 :=
  (record.number? op column).getD .zero

def share (record : RunRecord) (op : Operation) : Totals :=
  { max := record.figure op Lsm.maxColumn
    min := record.figure op Lsm.minColumn
    mean := record.figure op Lsm.meanColumn
    mib := record.figure op Lsm.totalMibColumn
    ops := record.figure op Lsm.totalOpsColumn
    iteration := (record.figure op Lsm.iterationColumn).toCount }

end RunRecord

namespace Lsm

def shareColumns : List String :=
  [maxColumn, minColumn, meanColumn, totalMibColumn, totalOpsColumn, iterationColumn]

def gap? (record : RunRecord) (op : Operation) : Option ReportError :=
  (shareColumns.find? fun column => (record.number? op column).isNone).map (.missingMetric op)

theorem gap?_eq_none_iff {record : RunRecord} {op : Operation} :
    gap? record op = none ↔ ∀ column ∈ shareColumns, (record.number? op column).isSome = true := by
  rw [gap?, Option.map_eq_none_iff, List.find?_eq_none]
  refine forall₂_congr fun column _ => ?_
  cases record.number? op column <;> simp

theorem figure_bind {α : Type} (record : RunRecord) (op : Operation) (column : String)
    (next : Binary64 → Except ReportError α) :
    (figure record op column >>= next) =
      if (record.number? op column).isNone then .error (.missingMetric op column)
      else next (record.figure op column) := by
  unfold figure RunRecord.figure
  cases record.number? op column <;> rfl

theorem totals_eq (record : RunRecord) (op : Operation) :
    totals record op = match gap? record op with
      | some fault => .error fault
      | none => .ok (record.share op) := by
  unfold totals gap? shareColumns
  simp only [figure_bind, List.find?_cons]
  -- Column after column, either this is the first without a number or it has one.
  iterate 6
    split
    · simp [*]
  simp [*]
  rfl

theorem nodeTotals_eq (record : RunRecord) :
    nodeTotals record = match Operation.all.findSome? (gap? record) with
      | some fault => .error fault
      | none => .ok { read := record.share .read, write := record.share .write } := by
  unfold nodeTotals
  rw [totals_eq, totals_eq]
  simp only [Operation.all, List.findSome?_cons, List.findSome?_nil]
  cases gap? record .read with
  | some fault => rfl
  | none => cases gap? record .write <;> rfl

end Lsm

/-- Whether the report of a file can be read and has a number in every column of a share, for reading
and for writing. -/
def givesShare (files : FileSystem) (file : OutputFile) : Bool :=
  match Dialect.lsm.readReport files file.path with
  | .error _ => false
  | .ok record => Operation.all.all fun op =>
    Lsm.shareColumns.all fun column => (record.number? op column).isSome

/-- Why a file gives no share: its report cannot be read, or else the first number that it lacks. -/
def shareFault? (files : FileSystem) (file : OutputFile) : Option ReportError :=
  match Dialect.lsm.readReport files file.path with
  | .error fault => some fault
  | .ok record => Operation.all.findSome? (Lsm.gap? record)

def shareIn (files : FileSystem) (op : Operation) (file : OutputFile) : Totals :=
  match Dialect.lsm.readReport files file.path with
  | .error _ => .zero
  | .ok record => record.share op

theorem shareFault?_eq_none_iff {files : FileSystem} {file : OutputFile} :
    shareFault? files file = none ↔ givesShare files file = true := by
  unfold shareFault? givesShare
  cases Dialect.lsm.readReport files file.path with
  | error fault => simp
  | ok record => simp only [List.findSome?_eq_none_iff, List.all_eq_true, Lsm.gap?_eq_none_iff]

theorem share_of_givesShare {files : FileSystem} {file : OutputFile}
    (given : givesShare files file = true) :
    ∃ record, Dialect.lsm.readReport files file.path = .ok record ∧
      ∀ op, shareIn files op file = record.share op ∧
        ∀ column ∈ Lsm.shareColumns, record.number? op column = some (record.figure op column) := by
  unfold givesShare at given
  unfold shareIn
  cases opened : Dialect.lsm.readReport files file.path with
  | error fault => simp [opened] at given
  | ok record =>
    simp only [opened, List.all_eq_true] at given
    refine ⟨record, rfl, fun op => ⟨rfl, fun column member => ?_⟩⟩
    obtain ⟨value, number⟩ := Option.isSome_iff_exists.mp (given op op.mem_all column member)
    rw [RunRecord.figure, number]
    rfl

theorem exists_faults (files : FileSystem) : ∃ fault : OutputFile → ReportError,
    ∀ file, givesShare files file = false → shareFault? files file = some (fault file) := by
  refine ⟨fun file => (shareFault? files file).getD (.malformed []), fun file lost => ?_⟩
  show shareFault? files file = some ((shareFault? files file).getD (.malformed []))
  cases found : shareFault? files file with
  | some fault => rfl
  | none =>
    rw [shareFault?_eq_none_iff.mp found] at lost
    cases lost

namespace Aggregation

variable {files : FileSystem} {cell : Cell} {outputs : CellOutputs}

theorem nodeTotals_eq (files : FileSystem) (file : OutputFile) :
    nodeTotals files file.path = match shareFault? files file with
      | some fault => .error fault
      | none => .ok { read := shareIn files .read file, write := shareIn files .write file } := by
  unfold nodeTotals shareFault? shareIn
  cases Dialect.lsm.readReport files file.path with
  | error fault => rfl
  | ok record => exact Lsm.nodeTotals_eq record

theorem usable_nodeReadings :
    (nodeReadings files outputs).usable =
      (outputs.values.filter (givesShare files)).map fun file =>
        { read := shareIn files .read file, write := shareIn files .write file } := by
  unfold nodeReadings
  induction outputs.values with
  | nil => rfl
  | cons file rest ih =>
    rw [List.map_cons, nodeTotals_eq]
    cases found : shareFault? files file with
    | none =>
      rw [List.filter_cons_of_pos (shareFault?_eq_none_iff.mp found), List.map_cons]
      exact congrArg _ ih
    | some fault =>
      have lost : ¬ givesShare files file = true := by
        rw [← shareFault?_eq_none_iff, found]
        exact nofun
      rw [List.filter_cons_of_neg lost]
      exact ih

theorem anomalies_nodeReadings {fault : OutputFile → ReportError}
    (faults : ∀ file, givesShare files file = false → shareFault? files file = some (fault file)) :
    (nodeReadings files outputs).anomalies =
      (outputs.values.filter fun file => !givesShare files file).map fun file =>
        .unusableFile file.path (fault file) := by
  unfold nodeReadings
  induction outputs.values with
  | nil => rfl
  | cons file rest ih =>
    rw [List.map_cons, nodeTotals_eq]
    cases given : givesShare files file with
    | true =>
      rw [shareFault?_eq_none_iff.mpr given, List.filter_cons_of_neg (by simp [given])]
      exact ih
    | false =>
      rw [faults file given, List.filter_cons_of_pos (by simp [given]), List.map_cons]
      exact congrArg _ ih

theorem ofNodes_anomalies :
    (ofNodes files cell outputs).anomalies =
      (nodeReadings files outputs).anomalies ++
        mismatch cell .usable cell.participants (nodeReadings files outputs).usable.length := rfl

theorem ofNodes_aggregate_shares :
    (ofNodes files cell outputs).aggregate =
      if outputs.values.filter (givesShare files) = [] then .empty
      else .summed
        { totals :=
            { read := .sum ((outputs.values.filter (givesShare files)).map (shareIn files .read))
              write := .sum ((outputs.values.filter (givesShare files)).map (shareIn files .write)) }
          participants := (outputs.values.filter (givesShare files)).length } := by
  simp only [ofNodes_aggregate, usable_nodeReadings, JobTotals.ofNodes_eq, List.map_eq_nil_iff,
    List.map_map, List.length_map]
  rfl

/-- The aggregate over all nodes is exact, and each file counts in full or not at all. The files that
give a share, in the order of their names, are those that are counted and summed, for reading and for
writing alike; each of the others is noted with its fault, in the same order, and nothing else is but
their number when it is not that of the nodes. -/
theorem ofNodes_sums (files : FileSystem) (cell : Cell) (outputs : CellOutputs) :
    let used := outputs.values.filter (givesShare files)
    let unused := outputs.values.filter fun file => !givesShare files file
    let aggregation := Dialect.lsm.aggregate files cell outputs
    (∀ file ∈ used, ∃ record, Dialect.lsm.readReport files file.path = .ok record ∧
      ∀ op, shareIn files op file = record.share op ∧
        ∀ column ∈ Lsm.shareColumns, record.number? op column = some (record.figure op column)) ∧
    (∃ fault : OutputFile → ReportError,
      (∀ file ∈ unused, shareFault? files file = some (fault file)) ∧
      aggregation.anomalies = unused.map (fun file => .unusableFile file.path (fault file)) ++
        if used.length = cell.participants then []
        else [.countMismatch cell .usable cell.participants used.length]) ∧
    aggregation.aggregate =
      if used = [] then .empty
      else .summed
        { totals :=
            { read := .sum (used.map (shareIn files .read))
              write := .sum (used.map (shareIn files .write)) }
          participants := used.length } := by
  intro used unused aggregation
  refine ⟨fun file member => ?_, ?_, ?_⟩
  · exact share_of_givesShare (List.mem_filter.mp member).2
  · obtain ⟨fault, faults⟩ := exists_faults files
    refine ⟨fault, fun file member => faults file (by simpa using (List.mem_filter.mp member).2), ?_⟩
    show (ofNodes files cell outputs).anomalies = _
    rw [ofNodes_anomalies, anomalies_nodeReadings faults, usable_nodeReadings, List.length_map]
    rfl
  · exact ofNodes_aggregate_shares

theorem Readings.usable_eq_nil_iff {α : Type} {readings : Readings α} :
    readings.usable = [] ↔ ∀ reading ∈ readings, reading.2.isOk = false := by
  rw [Readings.usable, List.filterMap_eq_nil_iff]
  refine forall₂_congr fun reading _ => ?_
  obtain ⟨path, result⟩ := reading
  cases result with
  | ok value => exact iff_of_false nofun nofun
  | error fault => exact iff_of_true rfl rfl

def writerReadings (files : FileSystem) (outputs : CellOutputs) : Readings RunRecord :=
  (writers outputs).map fun file => (file.path, Dialect.ior.readReport files file.path)

theorem ofWriter_aggregate_eq_empty_iff :
    (ofWriter files cell outputs).aggregate = .empty ↔
      ∀ file ∈ writers outputs, (Dialect.ior.readReport files file.path).isOk = false := by
  have first : (ofWriter files cell outputs).aggregate = .empty ↔
      (writerReadings files outputs).usable = [] := by
    unfold ofWriter writerReadings
    dsimp only
    split
    · rename_i empty
      exact iff_of_true rfl empty
    · rename_i given
      exact iff_of_false nofun (by rw [given]; exact nofun)
  rw [first, Readings.usable_eq_nil_iff, writerReadings, List.forall_mem_map]

theorem filter_mismatch {scope : CountScope} {expected found : Nat} :
    (mismatch cell scope expected found).filter Anomaly.isCountMismatch =
      mismatch cell scope expected found := by
  unfold mismatch
  split <;> rfl

theorem mismatch_inj {scope : CountScope} {expected left right : Nat} :
    mismatch cell scope expected left = mismatch cell scope expected right ↔ left = right := by
  unfold mismatch
  constructor
  · intro same
    split at same <;> split at same <;> simp_all
  · intro same
    rw [same]

theorem Readings.filter_anomalies {α : Type} (readings : Readings α) :
    readings.anomalies.filter Anomaly.isCountMismatch = [] := by
  rw [List.filter_eq_nil_iff]
  intro anomaly member
  obtain ⟨path, fault, _, rfl⟩ := Readings.mem_anomalies member
  exact nofun

end Aggregation

namespace Dialect

def givesRecord (dialect : Dialect) (files : FileSystem) (file : OutputFile) : Bool :=
  match dialect with
  | .ior => (Dialect.ior.readReport files file.path).isOk
  | .lsm => givesShare files file

def usable (dialect : Dialect) (files : FileSystem) (outputs : CellOutputs) : List OutputFile :=
  (dialect.sources outputs).filter (dialect.givesRecord files)

def expected (dialect : Dialect) (cell : Cell) : Nat :=
  match dialect with
  | .ior => 1
  | .lsm => cell.participants

/-- How many files a dialect counts: with `ior` all that are not empty, before their reports are read,
and with `lsm` those that gave a share. -/
def counted (dialect : Dialect) (files : FileSystem) (outputs : CellOutputs) : Nat :=
  match dialect with
  | .ior => (Aggregation.writers outputs).length
  | .lsm => (Dialect.lsm.usable files outputs).length

variable {files : FileSystem} {outputs : CellOutputs}

theorem counted_eq_iff {dialect : Dialect} :
    dialect.counted files outputs = (dialect.usable files outputs).length ↔
      (dialect = .ior → ∀ file ∈ Aggregation.writers outputs,
        (Dialect.ior.readReport files file.path).isOk = true) := by
  cases dialect with
  | ior =>
    have all := List.length_filter_eq_length_iff (p := Dialect.ior.givesRecord files)
      (l := Aggregation.writers outputs)
    rw [eq_comm, imp_iff_right rfl]
    exact all
  | lsm => simp [counted]

theorem aggregate_eq_empty_iff {dialect : Dialect} {cell : Cell} :
    (dialect.aggregate files cell outputs).aggregate = .empty ↔
      dialect.usable files outputs = [] := by
  cases dialect with
  | ior =>
    show (Aggregation.ofWriter files cell outputs).aggregate = .empty ↔ _
    rw [Aggregation.ofWriter_aggregate_eq_empty_iff, usable, List.filter_eq_nil_iff]
    exact forall₂_congr fun file _ => Bool.eq_false_iff
  | lsm =>
    show (Aggregation.ofNodes files cell outputs).aggregate = .empty ↔
      outputs.values.filter (givesShare files) = []
    rw [Aggregation.ofNodes_aggregate_shares]
    split
    · rename_i empty
      exact iff_of_true rfl empty
    · rename_i given
      exact iff_of_false nofun given

theorem reported_counts {dialect : Dialect} {cell : Cell} :
    (dialect.aggregate files cell outputs).anomalies.filter Anomaly.isCountMismatch =
      Aggregation.mismatch cell .usable (dialect.expected cell) (dialect.counted files outputs) := by
  cases dialect with
  | ior =>
    show (_ ++ _ : List Anomaly).filter _ = _
    rw [List.filter_append, Aggregation.filter_mismatch, Aggregation.Readings.filter_anomalies,
      List.append_nil]
    rfl
  | lsm =>
    show (Aggregation.ofNodes files cell outputs).anomalies.filter _ = _
    rw [Aggregation.ofNodes_anomalies, List.filter_append, Aggregation.filter_mismatch,
      Aggregation.Readings.filter_anomalies, List.nil_append, Aggregation.usable_nodeReadings,
      List.length_map]
    rfl

/-- For each dialect, what is reported of the count of records: that of the files counted, when it is
not as expected. An aggregate is empty just when none of its files gives a record, and the number
reported is that of the files that do unless, with `ior`, a file that is not empty cannot be used: it
is counted all the same. -/
theorem aggregate_counts (dialect : Dialect) (files : FileSystem) (cell : Cell)
    (outputs : CellOutputs) :
    let usable := dialect.usable files outputs
    let aggregation := dialect.aggregate files cell outputs
    let reported := aggregation.anomalies.filter Anomaly.isCountMismatch
    (aggregation.aggregate = .empty ↔ usable = []) ∧
    reported =
      Aggregation.mismatch cell .usable (dialect.expected cell) (dialect.counted files outputs) ∧
    (reported = Aggregation.mismatch cell .usable (dialect.expected cell) usable.length ↔
      (dialect = .ior → ∀ file ∈ Aggregation.writers outputs,
        (Dialect.ior.readReport files file.path).isOk = true)) := by
  intro usable aggregation reported
  have counts : reported = _ := reported_counts
  refine ⟨aggregate_eq_empty_iff, counts, ?_⟩
  rw [counts, Aggregation.mismatch_inj]
  exact counted_eq_iff

end Dialect

end Campaign
