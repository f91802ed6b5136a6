import Campaign.Proofs.Containment
import Campaign.Proofs.Rereading
import Campaign.Proofs.RoundTrip

namespace Campaign

namespace Export

variable {index : Index} {op : Operation} {stripes : StripeCount} {size : StripeSize}

theorem mem_rowsOf_iff {row : Row} :
    row ∈ rowsOf index op size stripes ↔
      row ∈ rows index ∧ row.op = op ∧ row.cell.size = size ∧ row.cell.stripes = stripes := by
  rw [mem_rows_iff]
  constructor
  · intro member
    obtain ⟨nodes, _, found⟩ := List.mem_filterMap.mp member
    obtain ⟨figures, present, rfl⟩ := Option.map_eq_some_iff.mp found
    exact ⟨present, rfl, rfl, rfl⟩
  · intro given
    obtain ⟨present, rfl, rfl, rfl⟩ := given
    refine List.mem_filterMap.mpr ⟨row.cell.nodes, row.cell.nodes.mem_all, ?_⟩
    exact Option.map_eq_some_iff.mpr ⟨row.figures, present, rfl⟩

def pointsOf (index : Index) (op : Operation) (size : StripeSize) (stripes : StripeCount) :
    List (Nat × Throughput) :=
  (rowsOf index op size stripes).map fun row => (row.cell.nodes.nodes, reread row.figures)

theorem ascending_pointsOf : Ascending (pointsOf index op size stripes) := by
  have ordered := NodeCount.ascending_all
  unfold pointsOf rowsOf
  rw [List.map_filterMap]
  refine List.Pairwise.filterMap _ ?_ ordered
  intro left right less row found other otherFound
  simp only [Option.map_map, Option.map_eq_some_iff] at found otherFound
  obtain ⟨_, _, rfl⟩ := found
  obtain ⟨_, _, rfl⟩ := otherFound
  exact less

theorem pairs_byNodes {summary : Summary}
    (points : ∀ key figures, summary.point? key = some figures ↔
      ∃ row ∈ rows index, row.key = key ∧ reread row.figures = figures) :
    (summary.byNodes op stripes.count size.label).pairs = pointsOf index op size stripes := by
  have ordered : Ascending (pointsOf index op size stripes) := ascending_pointsOf
  apply (summary.byNodes op stripes.count size.label).ascending.eq_of_lookup ordered
  intro nodes
  apply Option.ext
  intro figures
  have point := points { op := op, stripes := stripes.count, size := size.label, nodes := nodes }
    figures
  rw [ordered.lookup_eq_some_iff]
  refine point.trans ?_
  unfold pointsOf
  rw [List.mem_map]
  constructor
  · intro given
    obtain ⟨row, member, key, read⟩ := given
    simp only [Row.key, SummaryKey.mk.injEq] at key
    obtain ⟨ops, counts, labels, nodes⟩ := key
    have sizes := StripeSize.label_injective labels
    have stripes := StripeCount.count_injective counts
    exact ⟨row, mem_rowsOf_iff.mpr ⟨member, ops, sizes, stripes⟩, Prod.ext nodes read⟩
  · intro given
    obtain ⟨row, member, same⟩ := given
    obtain ⟨inRows, rfl, rfl, rfl⟩ := mem_rowsOf_iff.mp member
    obtain ⟨rfl, rfl⟩ := Prod.mk.inj same
    exact ⟨row, inRows, rfl, rfl⟩

end Export

theorem figureText_reread (x : Binary64) :
    figureText (some (x.reread 2)) 12 2 = figureText (some x) 12 2 := by
  unfold figureText Binary64.toFixed
  dsimp only
  rw [Binary64.fixedText_reread]

theorem Index.peakOf_of_throughput? {index : Index} {op : Operation} {cell : Cell}
    {figures : Throughput} (found : (index.get cell).throughput? op = some figures) :
    index.peakOf op cell = figures.max := by
  unfold peakOf
  cases held : index.get cell with
  | empty =>
    rw [held] at found
    cases found
  | summed record =>
    rw [held] at found
    cases found
    rfl
  | single record =>
    rw [held] at found
    cases max : record.number? op Ior.maxColumn with
    | none => simp [Aggregate.throughput?, max] at found
    | some value =>
      have given : ((record.number? op Ior.minColumn).bind fun min =>
          (record.number? op Ior.meanColumn).bind fun mean =>
            some { max := value, min := min, mean := mean }) = some figures := by
        simpa [Aggregate.throughput?, max] using found
      obtain ⟨min, _, rest⟩ := Option.bind_eq_some_iff.mp given
      obtain ⟨mean, _, same⟩ := Option.bind_eq_some_iff.mp rest
      cases same
      exact congrArg (Option.getD · .zero) max

namespace CommandLine

def figuresLine (nodes : NodeCount) (figures : Throughput) : String :=
  columns [Text.padLeft 5 nodes.label, figureText (some figures.max) 12 2,
    figureText (some figures.min) 12 2, figureText (some figures.mean) 12 2]

def peakLine (nodes : NodeCount) (peak : Binary64) : String :=
  columns [Text.padLeft 5 nodes.label, figureText (some peak) 12 2,
    Text.padLeft 10 (rateText peak .compact)]

theorem figuresLine_reread (nodes : NodeCount) (figures : Throughput) :
    figuresLine nodes (Export.reread figures) = figuresLine nodes figures := by
  unfold figuresLine Export.reread
  rw [figureText_reread, figureText_reread, figureText_reread]

theorem figuresLines_pointsOf (index : Index) (selection : Selection) :
    ((Export.pointsOf index selection.op selection.size selection.stripes).map
      fun (nodes, figures) =>
        columns [Text.padLeft 5 (Text.decimal nodes), figureText (some figures.max) 12 2,
          figureText (some figures.min) 12 2, figureText (some figures.mean) 12 2]) =
      NodeCount.all.filterMap fun nodes =>
        ((index.get { nodes := nodes, stripes := selection.stripes,
                      size := selection.size }).throughput? selection.op).map
          (figuresLine nodes) := by
  unfold Export.pointsOf Export.rowsOf
  rw [List.map_map, List.map_filterMap]
  apply List.filterMap_congr
  intro nodes _
  rw [Option.map_map]
  have lines : figuresLine nodes ∘ Export.reread = figuresLine nodes :=
    funext (figuresLine_reread nodes)
  rw [← lines]
  rfl

/-- An export that is read back is listed with the figures of the index itself, for the cells that
have throughput and in ascending order of their nodes; so its peaks are written as in the series. In
particular no text with two places changes when it is read and written once more. -/
theorem summaryTable_export (index : Index) (selection : Selection) :
    (∀ x : Binary64, ∃ read, Binary64.ofText? (x.fixedText 2) = some read ∧
      read.fixedText 2 = x.fixedText 2) ∧
    (∃ summary, Summary.parse (Export.text index) = .ok summary ∧
      summaryTable selection summary = Text.unlines (selection.title ::
        columns [Text.padLeft 5 "NODES", Text.padLeft 12 "MAX(MiB/s)",
          Text.padLeft 12 "MIN(MiB/s)", Text.padLeft 12 "MEAN(MiB/s)"] ::
        NodeCount.all.filterMap fun nodes =>
          ((index.get { nodes := nodes, stripes := selection.stripes,
                        size := selection.size }).throughput? selection.op).map
            (figuresLine nodes))) ∧
    (∀ series, index.series selection.op selection.stripes selection.size = .ok series →
      seriesTable selection series = Text.unlines (selection.title ::
        columns [Text.padLeft 5 "NODES", Text.padLeft 12 "MAX(MiB/s)", Text.padLeft 10 "RATE"] ::
        NodeCount.all.map fun nodes =>
          peakLine nodes (index.peakOf selection.op
            { nodes := nodes, stripes := selection.stripes, size := selection.size }))) ∧
    ∀ cell figures, (index.get cell).throughput? selection.op = some figures →
      index.peakOf selection.op cell = figures.max := by
  refine ⟨fun x => ⟨_, Binary64.ofText?_fixedText 2 x, Binary64.fixedText_reread x⟩, ?_,
    fun series found => ?_, fun cell figures => Index.peakOf_of_throughput?⟩
  · obtain ⟨summary, parsed, points, _⟩ := Export.parse_text_rows index
    have pairs : (selection.figures summary).pairs =
        Export.pointsOf index selection.op selection.size selection.stripes :=
      Export.pairs_byNodes points
    refine ⟨summary, parsed, ?_⟩
    unfold summaryTable
    rw [pairs]
    exact congrArg (fun lines => Text.unlines (_ :: _ :: lines)) (figuresLines_pointsOf index selection)
  · unfold seriesTable
    rw [Index.points_of_series found, List.map_map]
    rfl

end CommandLine

end Campaign
