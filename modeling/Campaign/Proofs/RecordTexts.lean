import Campaign.Proofs.JsonValues
import Campaign.RecordJson

namespace Campaign

theorem Metric.isValue_json (metric : Metric) : Json.IsValue metric.json := by
  cases metric with
  | number value => exact Json.isValue_number value
  | text word => exact .string word

theorem Metrics.isValue_json_fields (metrics : Metrics) :
    ∀ field ∈ metrics.pairs.map fun (column, value) => (column, Metric.json value),
      Json.IsValue field.2 := by
  rw [List.forall_mem_map]
  exact fun pair _ => pair.2.isValue_json

theorem Metrics.isValue_json (metrics : Metrics) : Json.IsValue metrics.json :=
  .object metrics.isValue_json_fields

theorem Totals.isValue_json_fields (totals : Totals) :
    ∀ field ∈ [("max_mib_s", Json.number totals.max), ("min_mib_s", Json.number totals.min),
        ("mean_mib_s", Json.number totals.mean), ("total_mib", Json.number totals.mib),
        ("total_ops", Json.number totals.ops), ("iteration", Json.count totals.iteration)],
      Json.IsValue field.2 := by
  simp only [List.forall_mem_cons, Json.isValue_number, Json.isValue_count, true_and]
  exact nofun

theorem Totals.isValue_json (totals : Totals) : Json.IsValue totals.json :=
  .object totals.isValue_json_fields

def Metrics.numbers (metrics : Metrics) : List Binary64 := metrics.values.filterMap Metric.number?

def Totals.numbers (totals : Totals) : List Binary64 :=
  [totals.max, totals.min, totals.mean, totals.mib, totals.ops]

theorem eq_of_map_eq {α β : Type} {f : α → β} {left right : List α}
    (apart : ∀ a ∈ left, ∀ b ∈ right, f a = f b → a = b) (same : left.map f = right.map f) :
    left = right := by
  induction left generalizing right with
  | nil => exact (List.map_eq_nil_iff.mp same.symm).symm
  | cons a rest ih =>
    obtain ⟨b, others, rfl, first, after⟩ := List.map_eq_cons_iff.mp same.symm
    rw [apart a List.mem_cons_self b List.mem_cons_self first.symm,
      ih (fun a inRest b inOthers => apart a (List.mem_cons_of_mem _ inRest) b
        (List.mem_cons_of_mem _ inOthers)) after.symm]

theorem Metric.json_injective {left right : Metric}
    (finite : ∀ x ∈ left.number?, x.isFinite = true)
    (otherFinite : ∀ x ∈ right.number?, x.isFinite = true) (same : left.json = right.json) :
    left = right := by
  cases left with
  | number x =>
    cases right with
    | number y => rw [Binary64.eq_of_number_eq (finite x rfl) (otherFinite y rfl) same]
    | text word => exact absurd same (Json.number_ne_string x word)
  | text word =>
    cases right with
    | number y => exact absurd same.symm (Json.number_ne_string y word)
    | text other => rw [Json.string_injective same]

theorem Metrics.json_injective {left right : Metrics}
    (finite : ∀ x ∈ left.numbers, x.isFinite = true)
    (otherFinite : ∀ x ∈ right.numbers, x.isFinite = true) (same : left.json = right.json) :
    left = right := by
  have fields := Json.object_injective left.isValue_json_fields right.isValue_json_fields same
  have member : ∀ {metrics : Metrics} {pair : String × Metric}, pair ∈ metrics.pairs →
      ∀ x ∈ pair.2.number?, x ∈ metrics.numbers := by
    intro metrics pair inPairs x given
    exact List.mem_filterMap.mpr ⟨pair.2, List.mem_map_of_mem inPairs, given⟩
  apply Table.ext
  refine eq_of_map_eq (fun pair inLeft other inRight equal => ?_) fields
  obtain ⟨columns, values⟩ := Prod.mk.inj equal
  exact Prod.ext columns (Metric.json_injective
    (fun x given => finite x (member inLeft x given))
    (fun x given => otherFinite x (member inRight x given)) values)

theorem Totals.json_injective {left right : Totals}
    (finite : ∀ x ∈ left.numbers, x.isFinite = true)
    (otherFinite : ∀ x ∈ right.numbers, x.isFinite = true) (same : left.json = right.json) :
    left = right := by
  have fields := Json.object_injective left.isValue_json_fields right.isValue_json_fields same
  simp only [List.cons.injEq, Prod.mk.injEq, true_and, and_true] at fields
  obtain ⟨maxs, mins, means, mibs, opss, iterations⟩ := fields
  simp only [Totals.numbers, List.forall_mem_cons] at finite otherFinite
  obtain ⟨max, min, mean, mib, ops, _⟩ := finite
  obtain ⟨otherMax, otherMin, otherMean, otherMib, otherOps, _⟩ := otherFinite
  cases left
  cases right
  rw [Totals.mk.injEq]
  exact ⟨Binary64.eq_of_number_eq max otherMax maxs, Binary64.eq_of_number_eq min otherMin mins,
    Binary64.eq_of_number_eq mean otherMean means, Binary64.eq_of_number_eq mib otherMib mibs,
    Binary64.eq_of_number_eq ops otherOps opss, Json.count_injective iterations⟩

def RunRecord.jsonFields (record : RunRecord) : List (String × List Char) :=
  [("read", record.read.json), ("write", record.write.json)]

theorem RunRecord.isValue_jsonFields (record : RunRecord) :
    ∀ field ∈ record.jsonFields, Json.IsValue field.2 := by
  simp only [jsonFields, List.forall_mem_cons, Metrics.isValue_json, true_and]
  exact nofun

def RunRecord.numbers (record : RunRecord) : List Binary64 :=
  record.read.numbers ++ record.write.numbers

theorem RunRecord.json_injective {left right : RunRecord}
    (finite : ∀ x ∈ left.numbers, x.isFinite = true)
    (otherFinite : ∀ x ∈ right.numbers, x.isFinite = true)
    (same : Json.object left.jsonFields = Json.object right.jsonFields) : left = right := by
  have fields := Json.object_injective left.isValue_jsonFields right.isValue_jsonFields same
  simp only [jsonFields, List.cons.injEq, Prod.mk.injEq, true_and, and_true] at fields
  obtain ⟨reads, writes⟩ := fields
  obtain ⟨readFinite, writeFinite⟩ := List.forall_mem_append.mp finite
  obtain ⟨otherRead, otherWrite⟩ := List.forall_mem_append.mp otherFinite
  have read := Metrics.json_injective readFinite otherRead reads
  have write := Metrics.json_injective writeFinite otherWrite writes
  cases left
  cases right
  rw [PerOperation.mk.injEq]
  exact ⟨read, write⟩

def JobTotals.jsonFields (record : JobTotals) : List (String × List Char) :=
  [("read", record.totals.read.json), ("write", record.totals.write.json),
    ("participants", Json.count record.participants)]

theorem JobTotals.isValue_jsonFields (record : JobTotals) :
    ∀ field ∈ record.jsonFields, Json.IsValue field.2 := by
  simp only [jsonFields, List.forall_mem_cons, Totals.isValue_json, Json.isValue_count, true_and]
  exact nofun

def JobTotals.numbers (record : JobTotals) : List Binary64 :=
  record.totals.read.numbers ++ record.totals.write.numbers

theorem JobTotals.json_injective {left right : JobTotals}
    (finite : ∀ x ∈ left.numbers, x.isFinite = true)
    (otherFinite : ∀ x ∈ right.numbers, x.isFinite = true)
    (same : Json.object left.jsonFields = Json.object right.jsonFields) : left = right := by
  have fields := Json.object_injective left.isValue_jsonFields right.isValue_jsonFields same
  simp only [jsonFields, List.cons.injEq, Prod.mk.injEq, true_and, and_true] at fields
  obtain ⟨reads, writes, participants⟩ := fields
  obtain ⟨readFinite, writeFinite⟩ := List.forall_mem_append.mp finite
  obtain ⟨otherRead, otherWrite⟩ := List.forall_mem_append.mp otherFinite
  have read := Totals.json_injective readFinite otherRead reads
  have write := Totals.json_injective writeFinite otherWrite writes
  have count := Json.count_injective participants
  obtain ⟨⟨_, _⟩, _⟩ := left
  obtain ⟨⟨_, _⟩, _⟩ := right
  rw [JobTotals.mk.injEq, PerOperation.mk.injEq]
  exact ⟨⟨read, write⟩, count⟩

namespace Aggregate

def numbers : Aggregate → List Binary64
  | .empty => []
  | .single record => record.numbers
  | .summed record => record.numbers

def kind : Aggregate → String
  | .empty => "empty"
  | .single _ => "single"
  | .summed _ => "summed"

def payload : Aggregate → List (String × List Char)
  | .empty => []
  | .single record => [("record", Json.object record.jsonFields)]
  | .summed record => [("record", Json.object record.jsonFields)]

theorem json_eq (aggregate : Aggregate) :
    aggregate.json = Json.object (("kind", Json.string aggregate.kind) :: aggregate.payload) := by
  cases aggregate <;> rfl

theorem isValue_jsonFields (aggregate : Aggregate) :
    ∀ field ∈ ("kind", Json.string aggregate.kind) :: aggregate.payload,
      Json.IsValue field.2 := by
  refine List.forall_mem_cons.mpr ⟨.string _, ?_⟩
  cases aggregate with
  | empty => exact nofun
  | single record => exact List.forall_mem_cons.mpr ⟨.object record.isValue_jsonFields, nofun⟩
  | summed record => exact List.forall_mem_cons.mpr ⟨.object record.isValue_jsonFields, nofun⟩

/-- Aggregates whose numbers are finite have the same text only if they are the same. -/
theorem json_eq_iff {left right : Aggregate} (finite : ∀ x ∈ left.numbers, x.isFinite = true)
    (otherFinite : ∀ x ∈ right.numbers, x.isFinite = true) :
    left.json = right.json ↔ left = right := by
  refine ⟨fun same => ?_, congrArg json⟩
  rw [json_eq, json_eq] at same
  have fields := Json.object_injective left.isValue_jsonFields right.isValue_jsonFields same
  obtain ⟨first, payloads⟩ := List.cons.inj fields
  have kinds : left.kind = right.kind := Json.string_injective (Prod.mk.inj first).2
  cases left with
  | empty =>
    cases right with
    | empty => rfl
    | single other => exact absurd kinds (by simp [kind])
    | summed other => exact absurd kinds (by simp [kind])
  | single record =>
    cases right with
    | empty => exact absurd kinds (by simp [kind])
    | single other =>
      have texts := (Prod.mk.inj (List.cons.inj payloads).1).2
      rw [RunRecord.json_injective finite otherFinite texts]
    | summed other => exact absurd kinds (by simp [kind])
  | summed record =>
    cases right with
    | empty => exact absurd kinds (by simp [kind])
    | single other => exact absurd kinds (by simp [kind])
    | summed other =>
      have texts := (Prod.mk.inj (List.cons.inj payloads).1).2
      rw [JobTotals.json_injective finite otherFinite texts]

theorem json_eq_iff_zeros :
    let record (value : Metric) : Aggregate :=
      .single { read := Table.empty.insert "bw" value, write := .empty }
    let zero := record (.number .zero)
    let negative := record (.number (.finite true ⟨0, by decide⟩))
    let text := record (.text "-0.0")
    (∀ aggregate ∈ [zero, negative, text], ∀ x ∈ aggregate.numbers, x.isFinite = true) ∧
      zero.json ≠ negative.json ∧ negative.json ≠ text.json := by
  intro record zero negative text
  have finite : ∀ aggregate ∈ [zero, negative, text],
      ∀ x ∈ aggregate.numbers, x.isFinite = true := by decide
  have zeroFinite := finite zero (by simp)
  have negativeFinite := finite negative (by simp)
  have textFinite := finite text (by simp)
  refine ⟨finite, fun same => ?_, fun same => ?_⟩
  · exact absurd ((json_eq_iff zeroFinite negativeFinite).mp same) (by decide)
  · exact absurd ((json_eq_iff negativeFinite textFinite).mp same) (by decide)

end Aggregate

end Campaign
