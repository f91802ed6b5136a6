import Campaign.Proofs.CsvLines
import Campaign.Proofs.ExportOrder
import Campaign.Proofs.FigureText
import Campaign.Proofs.SummaryRows

namespace Campaign

theorem Text.readCount?_digits {n : Nat} (small : n < countLimit) :
    readCount? (digits n) = some n := by
  obtain ⟨c, rest, cut⟩ := List.exists_cons_of_ne_nil (digits_ne_nil n)
  have digit : c.isDigit = true := isDigit_of_mem_digits (n := n) (cut ▸ List.mem_cons_self)
  have unsigned : readCount? (digits n) = readDigits? (digits n) := by
    rw [cut]
    unfold readCount?
    split
    · rename_i same
      cases same
      exact absurd digit (by decide)
    · rfl
  rw [unsigned, readDigits?_digits small]

namespace Export

def Row.key (row : Row) : SummaryKey :=
  { op := row.op
    stripes := row.cell.stripes.count
    size := row.cell.size.label
    nodes := row.cell.nodes.nodes }

def reread (figures : Throughput) : Throughput :=
  { max := figures.max.reread 2, min := figures.min.reread 2, mean := figures.mean.reread 2 }

theorem readFigure_fixedText (x : Binary64) :
    Summary.readFigure (x.fixedText 2) = .ok (x.reread 2) := by
  have given : (x.fixedText 2).isEmpty = false := by simpa using x.fixedText_ne_nil 2
  rw [Summary.readFigure, given, Binary64.ofText?_fixedText]
  rfl

theorem readRow_fields (row : Row) :
    Summary.readRow row.fields = .ok (row.key, reread row.figures) := by
  obtain ⟨op, ⟨nodes, stripes, size⟩, ⟨max, min, mean⟩⟩ := row
  have fewNodes : nodes.nodes < Text.countLimit := by cases nodes <;> decide
  have fewStripes : stripes.count < Text.countLimit := by cases stripes <;> decide
  have readNodes : Summary.readCount .invalidNodes nodes.label.toList = .ok nodes.nodes := by
    rw [Summary.readCount, NodeCount.label, Text.decimal, String.toList_ofList,
      Text.readCount?_digits fewNodes]
  have readStripes : Summary.readCount .invalidStripes stripes.label.toList =
      .ok stripes.count := by
    rw [Summary.readCount, StripeCount.label, Text.decimal, String.toList_ofList,
      Text.readCount?_digits fewStripes]
  have readOp : Operation.ofText op.name = .ok op := by cases op <;> decide +kernel
  simp only [Row.fields, Summary.readRow, readNodes, readStripes, readOp, readFigure_fixedText,
    String.ofList_toList, Except.mapError, bind, Except.bind, pure, Except.pure]
  rfl

def headerFields : List (List Char) := header.splitOn ','

theorem intercalate_headerFields : List.intercalate [','] headerFields = header :=
  List.intercalate_splitOn ','

theorem isPlain_headerFields : ∀ field ∈ headerFields, Csv.IsPlainField field := by
  have all : headerFields.all (fun field => !field.isEmpty && field.all Csv.isPlain) = true := by
    decide +kernel
  intro field member
  have plain := List.all_eq_true.mp all field member
  rw [Bool.and_eq_true, Bool.not_eq_true'] at plain
  exact Csv.isPlainField_of_all plain.1 plain.2

theorem isPlain_fields (row : Row) : ∀ field ∈ row.fields, Csv.IsPlainField field := by
  have size : Csv.IsPlainField row.cell.size.label.toList := by
    cases row.cell.size <;> exact Csv.isPlainField_of_all (by decide) (by decide)
  have op : Csv.IsPlainField row.op.name.toList := by
    cases row.op <;> exact Csv.isPlainField_of_all (by decide) (by decide)
  intro field member
  simp only [Row.fields, List.mem_cons, List.not_mem_nil, or_false] at member
  rcases member with rfl | rfl | rfl | rfl | rfl | rfl | rfl
  · exact Csv.isPlainField_decimal _
  · exact Csv.isPlainField_decimal _
  · exact size
  · exact op
  · exact Csv.isPlainField_fixedText 2 _
  · exact Csv.isPlainField_fixedText 2 _
  · exact Csv.isPlainField_fixedText 2 _

/-- The rows of an export are its header and the fields of its rows, all as they were written. -/
theorem fields_rows_text (index : Index) :
    (Csv.rows (text index)).map (·.fields) = headerFields :: (rows index).map Row.fields := by
  have lines : text index = (headerFields :: (rows index).map Row.fields).flatMap fun fields =>
      List.intercalate [','] fields ++ ['\n'] := by
    unfold text textOfRows
    rw [List.flatMap_cons, List.flatMap_cons, intercalate_headerFields, List.flatMap_map,
      List.flatMap_map]
    rfl
  have plain : ∀ fields ∈ headerFields :: (rows index).map Row.fields,
      fields ≠ [] ∧ ∀ field ∈ fields, Csv.IsPlainField field := by
    intro fields member
    rcases List.mem_cons.mp member with rfl | inRows
    · exact ⟨List.splitOn_ne_nil _ _, isPlain_headerFields⟩
    · obtain ⟨row, _, rfl⟩ := List.mem_map.mp inRows
      exact ⟨List.cons_ne_nil _ _, isPlain_fields row⟩
  have noMark : (text index).head? ≠ some '\uFEFF' := by
    have first : (text index).head? = some 'N' := rfl
    rw [first]
    decide
  rw [lines] at noMark ⊢
  exact Csv.fields_rows plain noMark

theorem isBlank_eq_false {row : Csv.Row} {fields : List (List Char)} (same : row.fields = fields)
    (given : fields ≠ []) (plain : ∀ field ∈ fields, Csv.IsPlainField field) :
    Summary.isBlank row = false := by
  obtain ⟨first, rest, rfl⟩ := List.exists_cons_of_ne_nil given
  have some : first.isEmpty = false := by simpa using (plain first List.mem_cons_self).given
  rw [Summary.isBlank, same, List.all_cons, some, Bool.false_and]

theorem fields_dataRows_text (index : Index) :
    (Summary.dataRows (Csv.rows (text index))).map (·.fields) = (rows index).map Row.fields := by
  have all := fields_rows_text index
  obtain ⟨first, others, cut, firstFields, otherFields⟩ := List.map_eq_cons_iff.mp all
  have notBlank : ∀ row ∈ first :: others, (!Summary.isBlank row) = true := by
    intro row member
    rcases List.mem_cons.mp member with rfl | inOthers
    · rw [isBlank_eq_false firstFields (List.splitOn_ne_nil _ _) isPlain_headerFields]
      rfl
    · have known : row.fields ∈ (rows index).map Row.fields :=
        otherFields ▸ List.mem_map_of_mem inOthers
      obtain ⟨written, _, same⟩ := List.mem_map.mp known
      rw [isBlank_eq_false same.symm (List.cons_ne_nil _ _) (isPlain_fields written)]
      rfl
  -- The first field of the header is no count.
  have noData : Summary.isData first = false := by
    rw [Summary.isData, firstFields]
    decide +kernel
  rw [cut, Summary.dataRows, List.filter_eq_self.mpr notBlank]
  simp only [noData, Bool.false_eq_true, if_false]
  exact otherFields

theorem readRow_dataRows_text (index : Index) :
    ((Summary.dataRows (Csv.rows (text index))).map fun row => Summary.readRow row.fields) =
      ((rows index).map fun row => (row.key, reread row.figures)).map .ok := by
  have fields := congrArg (List.map Summary.readRow) (fields_dataRows_text index)
  rw [List.map_map, List.map_map] at fields
  rw [List.map_map]
  refine fields.trans (List.map_congr_left fun row _ => ?_)
  exact readRow_fields row

theorem nodup_keys (index : Index) :
    (((rows index).map fun row => (row.key, reread row.figures)).map (·.1)).Nodup := by
  rw [List.map_map]
  refine List.pairwise_map.mpr ((rows_before index).imp fun {left right} before same => ?_)
  simp only [Function.comp_apply, Row.key, SummaryKey.mk.injEq] at same
  obtain ⟨ops, stripes, sizes, nodes⟩ := same
  unfold Row.Before at before
  rw [ops, sizes, stripes, nodes] at before
  have noText : ∀ text : String, ¬ text < text := fun text => String.lt_irrefl text
  simp only [noText, Nat.lt_irrefl, and_false, or_false] at before

theorem parse_text_rows (index : Index) :
    ∃ summary, Summary.parse (text index) = .ok summary ∧
      (∀ key figures, summary.point? key = some figures ↔
        ∃ row ∈ rows index, row.key = key ∧ reread row.figures = figures) ∧
      summary.size = (rows index).length := by
  have read := readRow_dataRows_text index
  have good : ∀ row ∈ Summary.dataRows (Csv.rows (text index)),
      ∃ key figures, Summary.Reads row.fields key figures := by
    intro row member
    have listed := List.mem_map_of_mem (f := fun row : Csv.Row => Summary.readRow row.fields) member
    rw [read] at listed
    obtain ⟨⟨key, figures⟩, _, same⟩ := List.mem_map.mp listed
    exact ⟨key, figures, ((Summary.readRow_iff row.fields).1 key figures).mp same.symm⟩
  obtain ⟨summary, added⟩ := (Summary.exists_foldlM_addRow_iff .empty).mpr good
  have held := Summary.holds_empty.foldlM_addRow added
  rw [List.nil_append] at held
  obtain ⟨points, size⟩ := held.of_different read (nodup_keys index)
  refine ⟨summary, (Summary.parse_eq _).trans added, fun key figures => ?_, ?_⟩
  · rw [points]
    simp
  · rw [size, List.length_map]

theorem reread_eq_iff {written figures : Throughput} :
    reread written = figures ↔
      Binary64.ofText? (written.max.fixedText 2) = some figures.max ∧
        Binary64.ofText? (written.min.fixedText 2) = some figures.min ∧
        Binary64.ofText? (written.mean.fixedText 2) = some figures.mean := by
  simp only [Binary64.ofText?_fixedText, Option.some.injEq]
  constructor
  · intro same
    subst same
    exact ⟨rfl, rfl, rfl⟩
  · intro given
    obtain ⟨max, min, mean⟩ := given
    rw [reread, max, min, mean]

/-- An export is read back as the summary with a point for every operation and cell that has
throughput, its figures rounded to two places, and with no other point. -/
theorem parse_text (index : Index) :
    ∃ summary, Summary.parse (text index) = .ok summary ∧
      (∀ key figures, summary.point? key = some figures ↔
        ∃ cell written, (index.get cell).throughput? key.op = some written ∧
          key.stripes = cell.stripes.count ∧ key.size = cell.size.label ∧
          key.nodes = cell.nodes.nodes ∧
          Binary64.ofText? (written.max.fixedText 2) = some figures.max ∧
          Binary64.ofText? (written.min.fixedText 2) = some figures.min ∧
          Binary64.ofText? (written.mean.fixedText 2) = some figures.mean) ∧
      (∀ cell op, ((index.get cell).throughput? op).isSome →
        (summary.point? { op := op
                          stripes := cell.stripes.count
                          size := cell.size.label
                          nodes := cell.nodes.nodes }).isSome) ∧
      summary.size = (rows index).length ∧
      (Csv.rows (text index)).map (·.fields) = headerFields :: (rows index).map Row.fields ∧
      (rows index).Pairwise Row.Before := by
  obtain ⟨summary, parsed, points, size⟩ := parse_text_rows index
  refine ⟨summary, parsed, ?_, ?_, size, fields_rows_text index, rows_before index⟩
  · intro key figures
    rw [points]
    constructor
    · intro given
      obtain ⟨row, member, rfl, read⟩ := given
      exact ⟨row.cell, row.figures, mem_rows_iff.mp member, rfl, rfl, rfl, reread_eq_iff.mp read⟩
    · intro given
      obtain ⟨cell, written, found, stripes, size, nodes, read⟩ := given
      let row : Row := { op := key.op, cell := cell, figures := written }
      have same : row.key = key := by
        rw [Row.key, ← stripes, ← size, ← nodes]
      exact ⟨row, mem_rows_iff.mpr found, same, reread_eq_iff.mpr read⟩
  · intro cell op given
    obtain ⟨written, found⟩ := Option.isSome_iff_exists.mp given
    let row : Row := { op := op, cell := cell, figures := written }
    have member : row ∈ rows index := mem_rows_iff.mpr found
    exact Option.isSome_iff_exists.mpr ⟨_, (points _ _).mpr ⟨row, member, rfl, rfl⟩⟩

end Export

end Campaign
