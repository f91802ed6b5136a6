import Campaign.Export

namespace Campaign.Export

/-- Rows by operation, label of the stripe size, stripe count and number of nodes. -/
def Row.Before (left right : Row) : Prop :=
  left.op.name < right.op.name ∨ left.op.name = right.op.name ∧
    (left.cell.size.label < right.cell.size.label ∨ left.cell.size.label = right.cell.size.label ∧
      (left.cell.stripes.count < right.cell.stripes.count ∨
        left.cell.stripes.count = right.cell.stripes.count ∧
          left.cell.nodes.nodes < right.cell.nodes.nodes))

theorem mem_sizesByLabel (size : StripeSize) : size ∈ sizesByLabel := by cases size <;> decide

theorem mem_rows_iff {index : Index} {row : Row} :
    row ∈ rows index ↔ (index.get row.cell).throughput? row.op = some row.figures := by
  simp only [rows, List.mem_flatMap, List.mem_filterMap, Option.map_eq_some_iff]
  constructor
  · intro given
    obtain ⟨op, _, size, _, stripes, _, nodes, _, figures, found, rfl⟩ := given
    exact found
  · intro found
    exact ⟨row.op, row.op.mem_all, row.cell.size, mem_sizesByLabel _, row.cell.stripes,
      row.cell.stripes.mem_all, row.cell.nodes, row.cell.nodes.mem_all, row.figures, found, rfl⟩

def rowsOf (index : Index) (op : Operation) (size : StripeSize) (stripes : StripeCount) : List Row :=
  NodeCount.all.filterMap fun nodes =>
    ((index.get { nodes := nodes, stripes := stripes, size := size }).throughput? op).map fun figures =>
      { op := op, cell := { nodes := nodes, stripes := stripes, size := size }, figures := figures }

theorem of_mem_rowsOf {index : Index} {op : Operation} {size : StripeSize} {stripes : StripeCount}
    {row : Row} (member : row ∈ rowsOf index op size stripes) :
    row.op = op ∧ row.cell.size = size ∧ row.cell.stripes = stripes := by
  obtain ⟨nodes, _, found⟩ := List.mem_filterMap.mp member
  obtain ⟨figures, _, rfl⟩ := Option.map_eq_some_iff.mp found
  exact ⟨rfl, rfl, rfl⟩

theorem rowsOf_before (index : Index) (op : Operation) (size : StripeSize) (stripes : StripeCount) :
    (rowsOf index op size stripes).Pairwise Row.Before := by
  refine List.Pairwise.filterMap _ ?_ NodeCount.ascending_all
  intro left right less row found other otherFound
  obtain ⟨_, _, rfl⟩ := Option.map_eq_some_iff.mp found
  obtain ⟨_, _, rfl⟩ := Option.map_eq_some_iff.mp otherFound
  exact Or.inr ⟨rfl, Or.inr ⟨rfl, Or.inr ⟨rfl, less⟩⟩⟩

theorem rows_before (index : Index) : (rows index).Pairwise Row.Before := by
  have operations : Operation.all.Pairwise fun left right => left.name < right.name := by decide
  have sizes : sizesByLabel.Pairwise fun left right => left.label < right.label := by decide
  have counts : StripeCount.all.Pairwise fun left right => left.count < right.count := by decide
  have cut : rows index = Operation.all.flatMap fun op => sizesByLabel.flatMap fun size =>
      StripeCount.all.flatMap fun stripes => rowsOf index op size stripes := rfl
  rw [cut]
  refine List.pairwise_flatMap.mpr ⟨fun op _ => ?_, operations.imp fun {left right} less => ?_⟩
  · refine List.pairwise_flatMap.mpr ⟨fun size _ => ?_, sizes.imp fun {left right} less => ?_⟩
    · refine List.pairwise_flatMap.mpr ⟨fun stripes _ => rowsOf_before index op size stripes,
        counts.imp fun {left right} less => ?_⟩
      intro row member other inOther
      obtain ⟨rfl, rfl, rfl⟩ := of_mem_rowsOf member
      obtain ⟨sameOp, sameSize, rfl⟩ := of_mem_rowsOf inOther
      exact Or.inr ⟨by rw [sameOp], Or.inr ⟨by rw [sameSize], Or.inl less⟩⟩
    · intro row member other inOther
      obtain ⟨_, _, member⟩ := List.mem_flatMap.mp member
      obtain ⟨_, _, inOther⟩ := List.mem_flatMap.mp inOther
      obtain ⟨rfl, rfl, _⟩ := of_mem_rowsOf member
      obtain ⟨sameOp, rfl, _⟩ := of_mem_rowsOf inOther
      exact Or.inr ⟨by rw [sameOp], Or.inl less⟩
  · intro row member other inOther
    obtain ⟨_, _, member⟩ := List.mem_flatMap.mp member
    obtain ⟨_, _, member⟩ := List.mem_flatMap.mp member
    obtain ⟨_, _, inOther⟩ := List.mem_flatMap.mp inOther
    obtain ⟨_, _, inOther⟩ := List.mem_flatMap.mp inOther
    obtain ⟨rfl, _, _⟩ := of_mem_rowsOf member
    obtain ⟨rfl, _, _⟩ := of_mem_rowsOf inOther
    exact Or.inl less

end Campaign.Export
