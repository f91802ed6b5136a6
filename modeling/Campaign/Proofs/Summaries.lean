import Campaign.Proofs.NestedTables
import Campaign.Summary

namespace Campaign.Summary

theorem point?_eq (summary : Summary) (key : SummaryKey) :
    summary.point? key = (summary.rows.get key.op).getIn? key.stripes key.size key.nodes := by
  unfold point? byNodes Table.getIn?
  cases ((summary.rows.get key.op).get? key.stripes).bind fun sizes => sizes.get? key.size <;> rfl

theorem size_eq (summary : Summary) :
    summary.size = (summary.rows.get .read).sizeIn + (summary.rows.get .write).sizeIn := rfl

@[simp] theorem point?_empty (key : SummaryKey) : empty.point? key = none := by
  obtain ⟨op, _, _, _⟩ := key
  cases op <;> rfl

theorem insert_eq (summary : Summary) (key : SummaryKey) (figures : Throughput) :
    summary.insert key figures =
      { rows := summary.rows.set key.op
          ((summary.rows.get key.op).insertIn key.stripes key.size key.nodes figures) } := rfl

theorem point?_insert (summary : Summary) (key other : SummaryKey) (figures : Throughput) :
    (summary.insert key figures).point? other =
      if other = key then some figures else summary.point? other := by
  rw [point?_eq, point?_eq, insert_eq]
  obtain ⟨op, stripes, size, nodes⟩ := key
  obtain ⟨op', stripes', size', nodes'⟩ := other
  simp only [SummaryKey.mk.injEq]
  by_cases same : op' = op
  · subst same
    rw [PerOperation.get_set_self, Table.getIn?_insertIn]
    simp only [true_and]
  · rw [PerOperation.get_set_of_ne _ same]
    simp only [same, false_and, if_false]

theorem size_insert (summary : Summary) (key : SummaryKey) (figures : Throughput) :
    (summary.insert key figures).size =
      summary.size + if (summary.point? key).isSome then 0 else 1 := by
  have grown := Table.sizeIn_insertIn (summary.rows.get key.op) key.stripes key.size key.nodes figures
  rw [size_eq, size_eq, insert_eq, point?_eq]
  obtain ⟨op, stripes, size, nodes⟩ := key
  dsimp only at grown ⊢
  have read : Operation.write ≠ .read := nofun
  have write : Operation.read ≠ .write := nofun
  cases op with
  | read =>
    rw [PerOperation.get_set_self, PerOperation.get_set_of_ne _ read, grown]
    omega
  | write =>
    rw [PerOperation.get_set_self, PerOperation.get_set_of_ne _ write, grown]
    omega

end Campaign.Summary
