import Campaign.Proofs.Shares

namespace Campaign

section

variable {κ α β : Type} [LT κ] [KeyOrder κ] {pairs : List (κ × α)} {f : κ × α → Option β}

theorem Ascending.findSome?_eq_some_iff (ascending : Ascending pairs) {value : β} :
    pairs.findSome? f = some value ↔
      ∃ pair ∈ pairs, f pair = some value ∧ ∀ other ∈ pairs, other.1 < pair.1 → f other = none := by
  rw [List.findSome?_eq_some_iff]
  constructor
  · intro found
    obtain ⟨before, pair, after, cut, given, nothing⟩ := found
    rw [cut] at ascending ⊢
    have above := (List.pairwise_cons.mp (List.pairwise_append.mp ascending).2.1).1
    refine ⟨pair, List.mem_append_right _ List.mem_cons_self, given, fun other member less => ?_⟩
    rcases List.mem_append.mp member with earlier | later
    · exact nothing other earlier
    · rcases List.mem_cons.mp later with rfl | inAfter
      · exact absurd less (KeyOrder.irrefl _)
      · exact absurd (KeyOrder.trans less (above other inAfter)) (KeyOrder.irrefl _)
  · intro found
    obtain ⟨pair, member, given, nothing⟩ := found
    obtain ⟨before, after, cut⟩ := List.append_of_mem member
    refine ⟨before, pair, after, cut, given, fun other earlier => ?_⟩
    rw [cut] at ascending nothing
    exact nothing other (List.mem_append_left _ earlier)
      ((List.pairwise_append.mp ascending).2.2 other earlier pair List.mem_cons_self)

omit [KeyOrder κ] in
theorem Ascending.filterMap_value (ascending : Ascending pairs) (g : α → Option β) :
    Ascending (pairs.filterMap fun pair => (g pair.2).map (pair.1, ·)) := by
  refine List.Pairwise.filterMap _ (fun left right less first given second found => ?_) ascending
  obtain ⟨_, _, rfl⟩ := Option.map_eq_some_iff.mp given
  obtain ⟨_, _, rfl⟩ := Option.map_eq_some_iff.mp found
  exact less

end

def CellOutputs.Writes (outputs : CellOutputs) (name : String) (file : OutputFile) : Prop :=
  outputs.get? name = some file ∧ 0 < file.size

/-- The files with further ones entered under their names, in the order given. -/
def CellOutputs.enter (outputs : CellOutputs) (added : List (String × OutputFile)) : CellOutputs :=
  added.foldl (fun outputs entry => outputs.insert entry.1 entry.2) outputs

namespace Aggregation

variable {files others : FileSystem} {cell : Cell} {outputs more : CellOutputs} {name : String}
  {file : OutputFile}

theorem writes_iff : outputs.Writes name file ↔
    (name, file) ∈ outputs.pairs.filter fun pair => 0 < pair.2.size := by
  rw [CellOutputs.Writes, Table.get?_eq_some_iff, List.mem_filter, decide_eq_true_eq]

theorem writers_eq_map : writers outputs =
    (outputs.pairs.filter fun pair => 0 < pair.2.size).map (·.2) := by
  rw [writers, Table.values, List.filter_map]
  rfl

theorem mem_writers_iff : file ∈ writers outputs ↔ ∃ name, outputs.Writes name file := by
  rw [writers, List.mem_filter, Table.mem_values_iff, decide_eq_true_eq]
  exact exists_and_right.symm

theorem writers_congr (same : ∀ name file, more.Writes name file ↔ outputs.Writes name file) :
    writers more = writers outputs := by
  have ordered : ∀ outputs : CellOutputs,
      Ascending (outputs.pairs.filter fun pair => 0 < pair.2.size) :=
    fun outputs => outputs.ascending.filter _
  have pairs : (more.pairs.filter fun pair => 0 < pair.2.size) =
      outputs.pairs.filter fun pair => 0 < pair.2.size := by
    refine (ordered more).eq_of_lookup (ordered outputs) fun name => Option.ext fun file => ?_
    rw [(ordered more).lookup_eq_some_iff, (ordered outputs).lookup_eq_some_iff, ← writes_iff,
      ← writes_iff]
    exact same name file
  rw [writers_eq_map, writers_eq_map, pairs]

theorem writes_enter_one {entry : String × OutputFile} (empty : entry.2.size = 0)
    (free : ∀ file, ¬ outputs.Writes entry.1 file) :
    (outputs.enter [entry]).Writes name file ↔ outputs.Writes name file := by
  unfold CellOutputs.Writes
  rw [CellOutputs.enter, List.foldl_cons, List.foldl_nil, Table.get?_insert]
  by_cases same : name = entry.1
  · rw [if_pos same]
    constructor
    · intro given
      obtain ⟨here, positive⟩ := given
      rw [← Option.some.inj here, empty] at positive
      exact absurd positive (Nat.lt_irrefl 0)
    · intro given
      exact absurd (same ▸ given) (free file)
  · rw [if_neg same]

theorem writes_enter {added : List (String × OutputFile)}
    (idle : ∀ entry ∈ added, entry.2.size = 0 ∧ ∀ file, ¬ outputs.Writes entry.1 file) :
    (outputs.enter added).Writes name file ↔ outputs.Writes name file := by
  induction added generalizing outputs with
  | nil => exact Iff.rfl
  | cons entry rest ih =>
    obtain ⟨empty, free⟩ := idle entry List.mem_cons_self
    have first : (outputs.enter [entry]).Writes name file ↔ outputs.Writes name file :=
      writes_enter_one empty free
    rw [← first]
    refine ih fun other member => ?_
    obtain ⟨otherEmpty, otherFree⟩ := idle other (List.mem_cons_of_mem _ member)
    exact ⟨otherEmpty, fun file => (writes_enter_one empty free).not.mpr (otherFree file)⟩

def record? (files : FileSystem) (file : OutputFile) : Option RunRecord :=
  if 0 < file.size then (Dialect.ior.readReport files file.path).toOption else none

def fault? (files : FileSystem) (file : OutputFile) : Option Anomaly :=
  if 0 < file.size then
    match Dialect.ior.readReport files file.path with
    | .ok _ => none
    | .error fault => some (.unusableFile file.path fault)
  else none

theorem usable_writerReadings :
    (writerReadings files outputs).usable = outputs.pairs.filterMap fun pair => record? files pair.2 := by
  rw [writerReadings, writers_eq_map, Readings.usable, List.filterMap_map, List.filterMap_map,
    List.filterMap_filter]
  refine List.filterMap_congr fun pair _ => ?_
  by_cases given : 0 < pair.2.size <;> simp [record?, given]

theorem anomalies_writerReadings :
    (writerReadings files outputs).anomalies =
      (outputs.pairs.filterMap fun pair => (fault? files pair.2).map (pair.1, ·)).map (·.2) := by
  rw [writerReadings, writers_eq_map, Readings.anomalies, List.filterMap_map, List.filterMap_map,
    List.filterMap_filter, List.map_filterMap]
  refine List.filterMap_congr fun pair _ => ?_
  by_cases given : 0 < pair.2.size
  · cases read : Dialect.ior.readReport files pair.2.path <;> simp [fault?, given, read]
  · simp [fault?, given]

theorem record?_eq_some_iff {record : RunRecord} : record? files file = some record ↔
    0 < file.size ∧ Dialect.ior.readReport files file.path = .ok record := by
  unfold record?
  cases Dialect.ior.readReport files file.path <;> simp [Except.toOption]

theorem record?_eq_none_iff : record? files file = none ↔
    (0 < file.size → (Dialect.ior.readReport files file.path).isOk = false) := by
  unfold record?
  cases Dialect.ior.readReport files file.path <;>
    simp [Except.toOption, Except.isOk, Except.toBool]

theorem fault?_eq_some_iff {anomaly : Anomaly} : fault? files file = some anomaly ↔
    0 < file.size ∧ ∃ fault, Dialect.ior.readReport files file.path = .error fault ∧
      anomaly = .unusableFile file.path fault := by
  unfold fault?
  cases Dialect.ior.readReport files file.path <;> simp [eq_comm]

theorem ofWriter_aggregate_eq_single_iff {record : RunRecord} :
    (ofWriter files cell outputs).aggregate = .single record ↔
      ∃ name file, outputs.Writes name file ∧ Dialect.ior.readReport files file.path = .ok record ∧
        ∀ earlier other, earlier < name → outputs.Writes earlier other →
          (Dialect.ior.readReport files other.path).isOk = false := by
  have first : (ofWriter files cell outputs).aggregate = .single record ↔
      outputs.pairs.findSome? (fun pair => record? files pair.2) = some record := by
    rw [← List.head?_filterMap, ← usable_writerReadings, ofWriter, writerReadings]
    dsimp only
    generalize Readings.usable (List.map _ (writers outputs)) = usable
    cases usable <;> simp
  rw [first, outputs.ascending.findSome?_eq_some_iff]
  simp only [CellOutputs.Writes, Table.get?_eq_some_iff]
  constructor
  · intro found
    obtain ⟨⟨name, file⟩, member, given, nothing⟩ := found
    obtain ⟨positive, read⟩ := record?_eq_some_iff.mp given
    refine ⟨name, file, ⟨member, positive⟩, read, fun earlier other less held => ?_⟩
    exact record?_eq_none_iff.mp (nothing (earlier, other) held.1 less) held.2
  · intro found
    obtain ⟨name, file, ⟨member, positive⟩, read, nothing⟩ := found
    refine ⟨(name, file), member, record?_eq_some_iff.mpr ⟨positive, read⟩, ?_⟩
    intro entry there less
    obtain ⟨earlier, other⟩ := entry
    exact record?_eq_none_iff.mpr fun given => nothing earlier other less ⟨there, given⟩

theorem mem_noted_iff {anomaly : Anomaly} :
    (name, anomaly) ∈ (outputs.pairs.filterMap fun pair =>
        (fault? files pair.2).map (pair.1, ·)) ↔
      ∃ file fault, outputs.Writes name file ∧
        Dialect.ior.readReport files file.path = .error fault ∧
        anomaly = .unusableFile file.path fault := by
  simp only [CellOutputs.Writes, Table.get?_eq_some_iff, List.mem_filterMap, Option.map_eq_some_iff]
  constructor
  · intro noted
    obtain ⟨⟨_, file⟩, member, _, given, same⟩ := noted
    cases same
    obtain ⟨positive, fault, read, about⟩ := fault?_eq_some_iff.mp given
    exact ⟨file, fault, ⟨member, positive⟩, read, about⟩
  · intro noted
    obtain ⟨file, fault, ⟨member, positive⟩, read, about⟩ := noted
    exact ⟨(name, file), member, anomaly, fault?_eq_some_iff.mpr ⟨positive, fault, read, about⟩, rfl⟩

/-- The aggregate of one writer is the record of the first file, in the order of the names, that is
not empty and whose report can be read. Each file that is not empty and cannot be read is noted once,
in the same order, wherever the chosen one stands. Files that are empty make no difference, nor does
what may be in them by now. -/
theorem ofWriter_takesFirst (files : FileSystem) (cell : Cell) (outputs : CellOutputs) :
    let aggregation := Dialect.ior.aggregate files cell outputs
    (∀ record, aggregation.aggregate = .single record ↔
      ∃ name file, outputs.Writes name file ∧ Dialect.ior.readReport files file.path = .ok record ∧
        ∀ earlier other, earlier < name → outputs.Writes earlier other →
          (Dialect.ior.readReport files other.path).isOk = false) ∧
    (aggregation.aggregate = .empty ↔ ∀ name file, outputs.Writes name file →
      (Dialect.ior.readReport files file.path).isOk = false) ∧
    (∃ noted : List (String × Anomaly), Ascending noted ∧
      (∀ name anomaly, (name, anomaly) ∈ noted ↔ ∃ file fault, outputs.Writes name file ∧
        Dialect.ior.readReport files file.path = .error fault ∧
        anomaly = .unusableFile file.path fault) ∧
      aggregation.anomalies =
        mismatch cell .usable 1 (writers outputs).length ++ noted.map (·.2)) ∧
    (∀ others more, (∀ name file, more.Writes name file ↔ outputs.Writes name file) →
      (∀ name file, outputs.Writes name file →
        others.readText file.path = files.readText file.path) →
      Dialect.ior.aggregate others cell more = aggregation) ∧
    ∀ added : List (String × OutputFile),
      (∀ entry ∈ added, entry.2.size = 0 ∧ ∀ file, ¬ outputs.Writes entry.1 file) →
      Dialect.ior.aggregate files cell (outputs.enter added) = aggregation := by
  intro aggregation
  have blind : ∀ others more, (∀ name file, more.Writes name file ↔ outputs.Writes name file) →
      (∀ name file, outputs.Writes name file →
        others.readText file.path = files.readText file.path) →
      Dialect.ior.aggregate others cell more = aggregation := by
    intro others more same agree
    have texts : ∀ file ∈ Dialect.ior.sources outputs,
        others.readText file.path = files.readText file.path := by
      intro file member
      obtain ⟨name, held⟩ := mem_writers_iff.mp member
      exact agree name file held
    have writers : ofWriter others cell more = ofWriter others cell outputs := by
      simp only [ofWriter, writers_congr same]
    exact writers.trans (Dialect.ior.aggregate_congr_sources cell texts)
  refine ⟨fun record => ofWriter_aggregate_eq_single_iff, ?_, ?_, blind, fun added idle => ?_⟩
  · refine ofWriter_aggregate_eq_empty_iff.trans ?_
    simp only [mem_writers_iff, forall_exists_index]
    exact forall_comm
  · refine ⟨_, outputs.ascending.filterMap_value (fault? files), fun _ _ => mem_noted_iff, ?_⟩
    rw [← anomalies_writerReadings]
    rfl
  · exact blind files _ (fun _ _ => writes_enter idle) fun _ _ _ => rfl

end Aggregation

end Campaign
