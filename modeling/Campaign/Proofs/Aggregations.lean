import Campaign.Aggregation
import Campaign.Proofs.Catalogs
import Mathlib.Data.List.Induction

namespace Campaign

namespace Aggregation

namespace Readings

variable {α : Type}

@[simp] theorem usable_cons_ok (path : Path) (value : α) (rest : Readings α) :
    Readings.usable ((path, .ok value) :: rest) = value :: rest.usable := rfl

@[simp] theorem anomalies_cons_ok (path : Path) (value : α) (rest : Readings α) :
    Readings.anomalies ((path, .ok value) :: rest) = rest.anomalies := rfl

@[simp] theorem anomalies_cons_error (path : Path) (fault : ReportError) (rest : Readings α) :
    Readings.anomalies ((path, .error fault) :: rest) =
      .unusableFile path fault :: rest.anomalies := rfl

theorem anomalies_eq_nil_iff {readings : Readings α} :
    readings.anomalies = [] ↔ ∀ reading ∈ readings, ∃ value, reading.2 = .ok value := by
  unfold anomalies
  rw [List.filterMap_eq_nil_iff]
  constructor
  · intro silent reading member
    obtain ⟨path, result⟩ := reading
    cases result with
    | ok value => exact ⟨value, rfl⟩
    | error fault => exact absurd (silent _ member) nofun
  · intro good reading member
    obtain ⟨path, result⟩ := reading
    obtain ⟨value, rfl⟩ := good _ member
    rfl

theorem usable_length_add_anomalies_length (readings : Readings α) :
    readings.usable.length + readings.anomalies.length = readings.length := by
  induction readings with
  | nil => rfl
  | cons head rest ih =>
    obtain ⟨path, result⟩ := head
    cases result with
    | ok value =>
      show (usable rest).length + 1 + (anomalies rest).length = rest.length + 1
      omega
    | error fault =>
      show (usable rest).length + ((anomalies rest).length + 1) = rest.length + 1
      omega

theorem mem_anomalies {readings : Readings α} {anomaly : Anomaly}
    (member : anomaly ∈ readings.anomalies) :
    ∃ path fault, (path, .error fault) ∈ readings ∧ anomaly = .unusableFile path fault := by
  obtain ⟨⟨path, result⟩, inReadings, noted⟩ := List.mem_filterMap.mp member
  cases result with
  | ok value => cases noted
  | error fault =>
    cases noted
    exact ⟨path, fault, inReadings, rfl⟩

end Readings

theorem mismatch_eq_nil_iff {cell : Cell} {scope : CountScope} {expected found : Nat} :
    mismatch cell scope expected found = [] ↔ found = expected := by
  unfold mismatch
  split <;> simp_all

theorem mem_mismatch {cell : Cell} {scope : CountScope} {expected found : Nat} {anomaly : Anomaly}
    (member : anomaly ∈ mismatch cell scope expected found) :
    anomaly = .countMismatch cell scope expected found := by
  unfold mismatch at member
  split at member
  · simp at member
  · exact List.mem_singleton.mp member

theorem nodeTotals_eq_ok_iff {files : FileSystem} {path : Path} {node : PerOperation Totals} :
    nodeTotals files path = .ok node ↔
      ∃ record, Dialect.lsm.readReport files path = .ok record ∧
        ∀ op, Lsm.totals record op = .ok (node.get op) := by
  unfold nodeTotals Lsm.nodeTotals
  constructor
  · intro given
    cases opened : Dialect.lsm.readReport files path with
    | error fault => simp [opened, bind, Except.bind] at given
    | ok record =>
      refine ⟨record, rfl, ?_⟩
      cases read : Lsm.totals record .read with
      | error fault => simp [opened, read, bind, Except.bind] at given
      | ok reading =>
        cases write : Lsm.totals record .write with
        | error fault => simp [opened, read, write, bind, Except.bind] at given
        | ok writing =>
          simp only [opened, read, write, bind, Except.bind, pure, Except.pure] at given
          cases given
          intro op
          cases op
          · exact read
          · exact write
  · intro given
    obtain ⟨record, opened, both⟩ := given
    simp [opened, both .read, both .write, bind, Except.bind, pure, Except.pure, PerOperation.get]

end Aggregation

namespace Totals

/-- The sum of shares: each figure by itself, from zero and in the order of the shares, but the
iteration count is that of the last share. -/
def sum (shares : List Totals) : Totals :=
  { max := (shares.map (·.max)).foldl (· + ·) .zero
    min := (shares.map (·.min)).foldl (· + ·) .zero
    mean := (shares.map (·.mean)).foldl (· + ·) .zero
    mib := (shares.map (·.mib)).foldl (· + ·) .zero
    ops := (shares.map (·.ops)).foldl (· + ·) .zero
    iteration := match shares.getLast? with
      | some last => last.iteration
      | none => 0 }

theorem foldl_add (shares : List Totals) : shares.foldl add zero = sum shares := by
  induction shares using List.reverseRecOn with
  | nil => rfl
  | append_singleton before last ih =>
    rw [List.foldl_concat, ih]
    simp only [sum, add, List.map_append, List.foldl_append, List.getLast?_concat]
    rfl

end Totals

theorem JobTotals.ofNodes_eq (nodes : List (PerOperation Totals)) :
    JobTotals.ofNodes nodes =
      { totals := { read := .sum (nodes.map (·.read)), write := .sum (nodes.map (·.write)) }
        participants := nodes.length } := by
  rw [← Totals.foldl_add, ← Totals.foldl_add]
  induction nodes using List.reverseRecOn with
  | nil => rfl
  | append_singleton before last ih =>
    have step : JobTotals.ofNodes (before ++ [last]) = (JobTotals.ofNodes before).addNode last :=
      List.foldl_concat _ _ _ _
    rw [step, ih]
    simp only [addNode, List.map_append, List.foldl_append, List.length_append]
    rfl

theorem JobTotals.get_totals_ofNodes (nodes : List (PerOperation Totals)) (op : Operation) :
    (JobTotals.ofNodes nodes).totals.get op = .sum (nodes.map (·.get op)) := by
  rw [ofNodes_eq]
  cases op <;> rfl

theorem JobTotals.participants_ofNodes (nodes : List (PerOperation Totals)) :
    (JobTotals.ofNodes nodes).participants = nodes.length := by
  rw [ofNodes_eq]

/-- A file that contributes the figures of one node, for reading and for writing. -/
def YieldsTotals (files : FileSystem) (file : OutputFile) : Prop :=
  ∃ record, Dialect.lsm.readReport files file.path = .ok record ∧
    ∀ op, ∃ totals, Lsm.totals record op = .ok totals

/-- The files of a cell are as many as nodes report for it, and they give all its figures: with `lsm`
each file those of its node, with `ior` the only one that is not empty those of the job. -/
def Complete (files : FileSystem) (dialect : Dialect) (cell : Cell) (outputs : CellOutputs) : Prop :=
  outputs.size = cell.participants ∧
    match dialect with
    | .lsm => ∀ file ∈ outputs.values, YieldsTotals files file
    | .ior => ∃ writer record, outputs.values.filter (fun file => 0 < file.size) = [writer] ∧
        Dialect.ior.readReport files writer.path = .ok record

def Anomaly.Concerns (cell : Cell) (outputs : CellOutputs) : Anomaly → Prop
  | .missingCell other _ => other = cell
  | .countMismatch other _ _ _ => other = cell
  | .unusableFile path _ => ∃ file ∈ outputs.values, path.same file.path = true
  | _ => False

theorem Cell.participants_pos (cell : Cell) : 0 < cell.participants := by
  have positive : ∀ nodes : NodeCount, 0 < nodes.nodes := by
    intro nodes
    cases nodes <;> decide
  exact positive cell.nodes

namespace Aggregation

variable {files : FileSystem} {cell : Cell} {outputs : CellOutputs}

theorem ofWriter_anomalies_eq_nil_iff :
    (ofWriter files cell outputs).anomalies = [] ↔
      ∃ writer record, writers outputs = [writer] ∧
        Dialect.ior.readReport files writer.path = .ok record := by
  unfold ofWriter
  rw [List.append_eq_nil_iff, mismatch_eq_nil_iff, Readings.anomalies_eq_nil_iff]
  constructor
  · intro given
    obtain ⟨one, good⟩ := given
    obtain ⟨writer, single⟩ := List.length_eq_one_iff.mp one
    obtain ⟨record, parsed⟩ := good (writer.path, _) (by rw [single]; exact List.mem_singleton_self _)
    exact ⟨writer, record, single, parsed⟩
  · intro given
    obtain ⟨writer, record, single, parsed⟩ := given
    refine ⟨by rw [single]; rfl, fun reading member => ?_⟩
    rw [single] at member
    cases List.mem_singleton.mp member
    exact ⟨record, parsed⟩

theorem ofWriter_aggregate {writer : OutputFile} {record : RunRecord}
    (single : writers outputs = [writer])
    (parsed : Dialect.ior.readReport files writer.path = .ok record) :
    (ofWriter files cell outputs).aggregate = .single record := by
  unfold ofWriter
  simp [single, parsed]

def nodeReadings (files : FileSystem) (outputs : CellOutputs) : Readings (PerOperation Totals) :=
  outputs.values.map fun file => (file.path, nodeTotals files file.path)

theorem length_nodeReadings : (nodeReadings files outputs).length = outputs.size := by
  simp [nodeReadings, Table.values, Table.size]

theorem nodeReadings_silent_iff :
    (nodeReadings files outputs).anomalies = [] ↔
      ∀ file ∈ outputs.values, YieldsTotals files file := by
  rw [Readings.anomalies_eq_nil_iff, nodeReadings, List.forall_mem_map]
  refine forall₂_congr fun file _ => ?_
  constructor
  · intro given
    obtain ⟨node, good⟩ := given
    obtain ⟨record, parsed, both⟩ := nodeTotals_eq_ok_iff.mp good
    exact ⟨record, parsed, fun op => ⟨_, both op⟩⟩
  · intro given
    obtain ⟨record, parsed, both⟩ := given
    obtain ⟨read, reading⟩ := both .read
    obtain ⟨write, writing⟩ := both .write
    refine ⟨{ read := read, write := write }, nodeTotals_eq_ok_iff.mpr ⟨record, parsed, ?_⟩⟩
    intro op
    cases op
    · exact reading
    · exact writing

theorem ofNodes_anomalies_eq_nil_iff :
    (ofNodes files cell outputs).anomalies = [] ↔
      outputs.size = cell.participants ∧ ∀ file ∈ outputs.values, YieldsTotals files file := by
  have all := Readings.usable_length_add_anomalies_length (nodeReadings files outputs)
  rw [length_nodeReadings] at all
  have parts : (ofNodes files cell outputs).anomalies =
      (nodeReadings files outputs).anomalies ++
        mismatch cell .usable cell.participants (nodeReadings files outputs).usable.length := rfl
  rw [parts, List.append_eq_nil_iff, mismatch_eq_nil_iff, ← nodeReadings_silent_iff]
  constructor
  · intro given
    obtain ⟨silent, counted⟩ := given
    rw [silent, List.length_nil] at all
    exact ⟨by omega, silent⟩
  · intro given
    obtain ⟨counted, silent⟩ := given
    rw [silent, List.length_nil] at all
    exact ⟨silent, by omega⟩

theorem ofNodes_aggregate :
    (ofNodes files cell outputs).aggregate =
      if (nodeReadings files outputs).usable = [] then .empty
      else .summed (.ofNodes (nodeReadings files outputs).usable) := by
  have parts : (ofNodes files cell outputs).aggregate =
      if (nodeReadings files outputs).usable.isEmpty then .empty
      else .summed (.ofNodes (nodeReadings files outputs).usable) := rfl
  rw [parts]
  simp only [List.isEmpty_iff]

theorem ofNodes_of_yields (some : 0 < outputs.size)
    (good : ∀ file ∈ outputs.values, YieldsTotals files file) :
    ∃ record, (ofNodes files cell outputs).aggregate = .summed record ∧
      record.participants = outputs.size := by
  have all := Readings.usable_length_add_anomalies_length (nodeReadings files outputs)
  rw [nodeReadings_silent_iff.mpr good, length_nodeReadings, List.length_nil] at all
  have given : (nodeReadings files outputs).usable ≠ [] := by
    intro none
    rw [none, List.length_nil] at all
    omega
  refine ⟨_, ofNodes_aggregate.trans (if_neg given), ?_⟩
  rw [JobTotals.participants_ofNodes]
  omega

end Aggregation

def Dialect.sources (dialect : Dialect) (outputs : CellOutputs) : List OutputFile :=
  match dialect with
  | .ior => Aggregation.writers outputs
  | .lsm => outputs.values

theorem Dialect.mem_values_of_mem_sources {dialect : Dialect} {outputs : CellOutputs}
    {file : OutputFile} (member : file ∈ dialect.sources outputs) : file ∈ outputs.values := by
  cases dialect with
  | ior => exact (List.mem_filter.mp member).1
  | lsm => exact member

theorem Dialect.aggregate_congr_sources {left right : FileSystem} (dialect : Dialect) (cell : Cell)
    {outputs : CellOutputs}
    (agree : ∀ file ∈ dialect.sources outputs, left.readText file.path = right.readText file.path) :
    dialect.aggregate left cell outputs = dialect.aggregate right cell outputs := by
  have reports : ∀ file ∈ dialect.sources outputs,
      dialect.readReport left file.path = dialect.readReport right file.path := by
    intro file member
    unfold Dialect.readReport
    rw [agree file member]
  cases dialect with
  | ior =>
    have readings : (Aggregation.writers outputs).map (fun file =>
          (file.path, Dialect.ior.readReport left file.path)) =
        (Aggregation.writers outputs).map fun file =>
          (file.path, Dialect.ior.readReport right file.path) := by
      apply List.map_congr_left
      intro file member
      rw [reports file member]
    show Aggregation.ofWriter left cell outputs = Aggregation.ofWriter right cell outputs
    simp only [Aggregation.ofWriter, readings]
  | lsm =>
    have readings : outputs.values.map (fun file =>
          (file.path, Aggregation.nodeTotals left file.path)) =
        outputs.values.map fun file => (file.path, Aggregation.nodeTotals right file.path) := by
      apply List.map_congr_left
      intro file member
      unfold Aggregation.nodeTotals
      rw [reports file member]
    show Aggregation.ofNodes left cell outputs = Aggregation.ofNodes right cell outputs
    simp only [Aggregation.ofNodes, readings]

theorem Dialect.aggregate_congr {left right : FileSystem} (dialect : Dialect) (cell : Cell)
    {outputs : CellOutputs}
    (agree : ∀ file ∈ outputs.values, left.readText file.path = right.readText file.path) :
    dialect.aggregate left cell outputs = dialect.aggregate right cell outputs :=
  dialect.aggregate_congr_sources cell fun file member => agree file (mem_values_of_mem_sources member)

namespace Catalog

open Aggregation

variable {catalog : Catalog} {files : FileSystem} {dialect : Dialect} {cell : Cell}

theorem aggregate_congr {other : Catalog} {others : FileSystem}
    (same : catalog.outputs cell = other.outputs cell)
    (agree : ∀ outputs, catalog.outputs cell = .ok outputs → ∀ file ∈ dialect.sources outputs,
      files.readText file.path = others.readText file.path) :
    catalog.aggregate files dialect cell = other.aggregate others dialect cell := by
  unfold aggregate
  rw [← same]
  cases found : catalog.outputs cell with
  | error level => rfl
  | ok outputs => simp only [dialect.aggregate_congr_sources cell (agree outputs found)]

theorem aggregate_aggregate :
    (catalog.aggregate files dialect cell).aggregate =
      (dialect.aggregate files cell (catalog.filesOf cell)).aggregate := by
  unfold aggregate filesOf
  cases catalog.outputs cell with
  | ok outputs => rfl
  | error level => cases dialect <;> rfl

theorem aggregate_silent_iff :
    (catalog.aggregate files dialect cell).anomalies = [] ↔
      Complete files dialect cell (catalog.filesOf cell) := by
  unfold aggregate filesOf
  cases catalog.outputs cell with
  | error level =>
    constructor
    · intro given
      cases given
    · intro complete
      have counted : 0 = cell.participants := complete.1
      have positive := cell.participants_pos
      omega
  | ok outputs =>
    show _ ++ _ = [] ↔ _
    rw [List.append_eq_nil_iff, mismatch_eq_nil_iff]
    cases dialect with
    | ior => exact and_congr Iff.rfl ofWriter_anomalies_eq_nil_iff
    | lsm =>
      -- The files are counted twice, in the catalog and where they are summed.
      rw [Dialect.aggregate, ofNodes_anomalies_eq_nil_iff, ← and_assoc, and_self]
      exact Iff.rfl

/-- Every anomaly in the aggregation of a cell is a violation and about that cell. -/
theorem concerns_of_mem_aggregate {anomaly : Anomaly}
    (member : anomaly ∈ (catalog.aggregate files dialect cell).anomalies) :
    anomaly.isViolation = true ∧ anomaly.Concerns cell (catalog.filesOf cell) := by
  unfold aggregate at member
  unfold filesOf
  cases found : catalog.outputs cell with
  | error level =>
    rw [found] at member
    cases List.mem_singleton.mp member
    exact ⟨rfl, rfl⟩
  | ok outputs =>
    rw [found] at member
    have counted : ∀ {scope expected found}, anomaly ∈ mismatch cell scope expected found →
        anomaly.isViolation = true ∧ anomaly.Concerns cell outputs := by
      intro scope expected found listed
      cases mem_mismatch listed
      exact ⟨rfl, rfl⟩
    have unusable : ∀ {α : Type} (read : OutputFile → Except ReportError α) (chosen : List OutputFile),
        (∀ file ∈ chosen, file ∈ outputs.values) →
        anomaly ∈ Readings.anomalies (chosen.map fun file => (file.path, read file)) →
        anomaly.isViolation = true ∧ anomaly.Concerns cell outputs := by
      intro α read chosen given noted
      obtain ⟨path, fault, inReadings, rfl⟩ := Readings.mem_anomalies noted
      obtain ⟨file, inFiles, same⟩ := List.mem_map.mp inReadings
      have here : file.path = path := congrArg Prod.fst same
      exact ⟨rfl, file, given file inFiles, Path.same_iff.mpr (by rw [here])⟩
    rcases List.mem_append.mp member with listed | inAggregation
    · exact counted listed
    · cases dialect with
      | ior =>
        rcases List.mem_append.mp inAggregation with listed | noted
        · exact counted listed
        · exact unusable (fun file => Dialect.ior.readReport files file.path) (writers outputs)
            (fun _ inFiles => (List.mem_filter.mp inFiles).1) noted
      | lsm =>
        rcases List.mem_append.mp inAggregation with noted | listed
        · exact unusable (fun file => nodeTotals files file.path) outputs.values
            (fun _ inFiles => inFiles) noted
        · exact counted listed

theorem aggregate_of_complete (complete : Complete files dialect cell (catalog.filesOf cell)) :
    match dialect with
    | .lsm => ∃ record, (catalog.aggregate files .lsm cell).aggregate = .summed record ∧
        record.participants = cell.participants
    | .ior => ∃ writer record,
        (catalog.filesOf cell).values.filter (fun file => 0 < file.size) = [writer] ∧
        Dialect.ior.readReport files writer.path = .ok record ∧
        (catalog.aggregate files .ior cell).aggregate = .single record := by
  obtain ⟨counted, good⟩ := complete
  cases dialect with
  | ior =>
    obtain ⟨writer, record, single, parsed⟩ := good
    exact ⟨writer, record, single, parsed,
      aggregate_aggregate.trans (ofWriter_aggregate single parsed)⟩
  | lsm =>
    have positive : 0 < (catalog.filesOf cell).size := by
      have some := cell.participants_pos
      omega
    obtain ⟨record, summed, counts⟩ := @ofNodes_of_yields files cell _ positive good
    exact ⟨record, aggregate_aggregate.trans summed, counts.trans counted⟩

end Catalog

end Campaign
