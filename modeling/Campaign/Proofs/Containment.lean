import Campaign.CommandLine.Run
import Campaign.Proofs.Diagnostics
import Campaign.Proofs.RoundTrip

namespace Campaign

section

variable {α β ε : Type} {f : α → Except ε β} {list : List α}

theorem mapM_eq_error_iff {error : ε} :
    list.mapM f = .error error ↔
      ∃ before x after, list = before ++ x :: after ∧ (∀ y ∈ before, ∃ value, f y = .ok value) ∧
        f x = .error error := by
  induction list with
  | nil => simp [pure, Except.pure]
  | cons head rest ih =>
    rw [List.mapM_cons]
    cases first : f head with
    | error other =>
      constructor
      · intro failed
        cases failed
        exact ⟨[], head, rest, rfl, nofun, first⟩
      · intro given
        obtain ⟨before, x, after, cut, good, failed⟩ := given
        cases before with
        | nil =>
          obtain ⟨rfl, rfl⟩ := List.cons.inj cut
          obtain rfl := Except.error.inj (first.symm.trans failed)
          rfl
        | cons y before =>
          obtain ⟨rfl, rfl⟩ := List.cons.inj cut
          obtain ⟨value, fine⟩ := good head List.mem_cons_self
          rw [first] at fine
          cases fine
    | ok value =>
      have later : (Except.ok value >>= fun v => rest.mapM f >>= fun vs => pure (v :: vs)) =
          .error error ↔ rest.mapM f = .error error := by
        cases rest.mapM f <;> simp [bind, Except.bind, pure, Except.pure]
      rw [later, ih]
      constructor
      · intro given
        obtain ⟨before, x, after, rfl, good, failed⟩ := given
        refine ⟨head :: before, x, after, rfl, fun y member => ?_, failed⟩
        rcases List.mem_cons.mp member with rfl | inBefore
        · exact ⟨value, first⟩
        · exact good y inBefore
      · intro given
        obtain ⟨before, x, after, cut, good, failed⟩ := given
        cases before with
        | nil =>
          obtain ⟨rfl, rfl⟩ := List.cons.inj cut
          rw [first] at failed
          cases failed
        | cons y before =>
          obtain ⟨rfl, rfl⟩ := List.cons.inj cut
          exact ⟨before, x, after, rfl, fun y member => good y (List.mem_cons_of_mem _ member),
            failed⟩

theorem exists_ok_of_mapM {values : List β} (done : list.mapM f = .ok values) :
    ∀ x ∈ list, ∃ value, f x = .ok value := by
  induction list generalizing values with
  | nil => exact nofun
  | cons head rest ih =>
    rw [List.mapM_cons] at done
    cases first : f head with
    | error error =>
      rw [first] at done
      cases done
    | ok value =>
      rw [first] at done
      cases others : rest.mapM f with
      | error error =>
        rw [others] at done
        cases done
      | ok later =>
        intro x member
        rcases List.mem_cons.mp member with rfl | inRest
        · exact ⟨value, first⟩
        · exact ih others x inRest

theorem mapM_eq_ok_map {g : α → β} (good : ∀ x ∈ list, f x = .ok (g x)) :
    list.mapM f = .ok (list.map g) := by
  induction list with
  | nil => rfl
  | cons head rest ih =>
    have others := ih fun x member => good x (List.mem_cons_of_mem _ member)
    rw [List.mapM_cons, good head List.mem_cons_self, others]
    rfl

end

theorem Catalog.build_eq_error_iff {files : FileSystem} {root : Path} {error : RootUnreadable} :
    build files root = .error error ↔
      ∃ fault, files.list root = .error fault ∧ error = { path := root, fault := fault } := by
  rw [← Snapshot.take_eq_error_iff, build]
  cases Snapshot.take files root <;> simp [Except.map]

namespace Index

variable {files : FileSystem} {root : Path} {dialect : Dialect}

theorem build_eq_error_iff {error : RootUnreadable} :
    build files root dialect = .error error ↔
      ∃ fault, files.list root = .error fault ∧ error = { path := root, fault := fault } := by
  rw [← Catalog.build_eq_error_iff, build]
  cases Catalog.build files root <;> simp [Except.map]

theorem build_of_listed {listed : List Path} (listable : files.list root = .ok listed)
    (dialect : Dialect) :
    ∃ index anomalies, build files root dialect = .ok (index, anomalies) := by
  obtain ⟨catalog, before, catalogued⟩ := Catalog.build_of_listable listable
  exact ⟨_, _, build_of_catalog catalogued⟩

end Index

namespace Aggregate

def Suits (dialect : Dialect) (aggregate : Aggregate) : Prop :=
  aggregate = .empty ∨
    match dialect with
    | .ior => ∃ record, aggregate = .single record
    | .lsm => ∃ record, aggregate = .summed record

theorem suits_aggregate (files : FileSystem) (dialect : Dialect) (cell : Cell)
    (outputs : CellOutputs) : (dialect.aggregate files cell outputs).aggregate.Suits dialect := by
  cases dialect with
  | ior =>
    unfold Dialect.aggregate Aggregation.ofWriter
    dsimp only
    split
    · exact Or.inl rfl
    · exact Or.inr ⟨_, rfl⟩
  | lsm =>
    unfold Dialect.aggregate Aggregation.ofNodes
    dsimp only
    split
    · exact Or.inl rfl
    · exact Or.inr ⟨_, rfl⟩

theorem peak?_eq_none_iff {aggregate : Aggregate} {op : Operation} :
    aggregate.peak? op = none ↔
      ∃ record, aggregate = .single record ∧ record.number? op Ior.maxColumn = none := by
  cases aggregate <;> simp [peak?]

end Aggregate

namespace Index

variable {files : FileSystem} {root : Path} {dialect : Dialect} {index : Index}
  {anomalies : List Anomaly} {op : Operation} {stripes : StripeCount} {size : StripeSize}

theorem dialect_of_build (built : build files root dialect = .ok (index, anomalies)) :
    index.dialect = dialect := by
  obtain ⟨catalog, _, _, rfl, _⟩ := catalog_of_build built
  rfl

theorem suits_of_build (built : build files root dialect = .ok (index, anomalies)) (cell : Cell) :
    (index.get cell).Suits dialect := by
  obtain ⟨catalog, _, _, rfl, _⟩ := catalog_of_build built
  rw [get_ofCatalog, Catalog.aggregate]
  cases catalog.outputs cell with
  | error level => exact Or.inl rfl
  | ok outputs => exact Aggregate.suits_aggregate files dialect cell outputs

/-- The record of a cell of the series has no number for the peak. -/
def LacksPeak (index : Index) (op : Operation) (stripes : StripeCount) (size : StripeSize)
    (nodes : NodeCount) : Prop :=
  ∃ record, index.get { nodes := nodes, stripes := stripes, size := size } = .single record ∧
    record.number? op Ior.maxColumn = none

def peakOf (index : Index) (op : Operation) (cell : Cell) : Binary64 :=
  match index.get cell with
  | .empty => .zero
  | .single record => (record.number? op Ior.maxColumn).getD .zero
  | .summed record => (record.totals.get op).max

theorem point_eq_error_iff {nodes : NodeCount} {error : MissingPeak} :
    index.point op stripes size nodes = .error error ↔
      index.LacksPeak op stripes size nodes ∧
        error = { nodes := nodes.nodes, column := index.dialect.peakColumn } := by
  unfold LacksPeak
  rw [← Aggregate.peak?_eq_none_iff, point]
  cases (index.get { nodes := nodes, stripes := stripes, size := size }).peak? op with
  | none => simp [eq_comm]
  | some value => simp

theorem point_of_not_lacksPeak {nodes : NodeCount}
    (given : ¬ index.LacksPeak op stripes size nodes) :
    index.point op stripes size nodes = .ok (nodes.nodes,
      index.peakOf op { nodes := nodes, stripes := stripes, size := size }) := by
  unfold LacksPeak at given
  unfold point peakOf
  cases found : index.get { nodes := nodes, stripes := stripes, size := size } with
  | empty => rfl
  | summed record => rfl
  | single record =>
    rw [found] at given
    cases number : record.number? op Ior.maxColumn with
    | none => exact absurd ⟨record, rfl, number⟩ given
    | some value => simp [Aggregate.peak?, number]

theorem series_eq_error_iff {error : MissingPeak} :
    index.series op stripes size = .error error ↔
      ∃ nodes, index.LacksPeak op stripes size nodes ∧
        (∀ fewer : NodeCount, fewer.nodes < nodes.nodes →
          ¬ index.LacksPeak op stripes size fewer) ∧
        error = { nodes := nodes.nodes, column := index.dialect.peakColumn } := by
  have failed : index.series op stripes size = .error error ↔
      NodeCount.all.mapM (index.point op stripes size) = .error error := by
    unfold series
    cases NodeCount.all.mapM (index.point op stripes size) <;>
      simp [bind, Except.bind, pure, Except.pure]
  rw [failed, mapM_eq_error_iff]
  constructor
  · intro given
    obtain ⟨before, nodes, after, cut, good, here⟩ := given
    obtain ⟨lacking, same⟩ := point_eq_error_iff.mp here
    refine ⟨nodes, lacking, fun fewer less lacks => ?_, same⟩
    have ordered := NodeCount.ascending_all
    rw [cut] at ordered
    have above := (List.pairwise_cons.mp (List.pairwise_append.mp ordered).2.1).1
    have member : fewer ∈ before ++ nodes :: after := cut ▸ fewer.mem_all
    rcases List.mem_append.mp member with earlier | later
    · obtain ⟨value, fine⟩ := good fewer earlier
      rw [point_eq_error_iff.mpr ⟨lacks, rfl⟩] at fine
      cases fine
    · rcases List.mem_cons.mp later with rfl | inAfter
      · omega
      · have more := above fewer inAfter
        omega
  · intro given
    obtain ⟨nodes, lacking, first, same⟩ := given
    obtain ⟨before, after, cut⟩ := List.append_of_mem nodes.mem_all
    refine ⟨before, nodes, after, cut, fun fewer member => ?_,
      point_eq_error_iff.mpr ⟨lacking, same⟩⟩
    have ordered := NodeCount.ascending_all
    rw [cut] at ordered
    have less := (List.pairwise_append.mp ordered).2.2 fewer member nodes List.mem_cons_self
    exact ⟨_, point_of_not_lacksPeak (first fewer less)⟩

theorem series_of_not_lacksPeak (given : ∀ nodes, ¬ index.LacksPeak op stripes size nodes) :
    index.series op stripes size = .ok { points := NodeCount.all.map fun nodes =>
      (nodes.nodes, index.peakOf op { nodes := nodes, stripes := stripes, size := size }) } := by
  have points : NodeCount.all.mapM (index.point op stripes size) =
      .ok (NodeCount.all.map fun nodes => (nodes.nodes,
        index.peakOf op { nodes := nodes, stripes := stripes, size := size })) :=
    mapM_eq_ok_map fun nodes _ => point_of_not_lacksPeak (given nodes)
  rw [series, points]
  rfl

theorem points_of_series {series : Series} (found : index.series op stripes size = .ok series) :
    series.points = NodeCount.all.map fun nodes => (nodes.nodes,
      index.peakOf op { nodes := nodes, stripes := stripes, size := size }) := by
  have done : ∃ values, NodeCount.all.mapM (index.point op stripes size) = .ok values := by
    unfold Index.series at found
    cases points : NodeCount.all.mapM (index.point op stripes size) with
    | error error =>
      rw [points] at found
      cases found
    | ok values => exact ⟨values, rfl⟩
  obtain ⟨values, done⟩ := done
  have peaks : ∀ nodes, ¬ index.LacksPeak op stripes size nodes := by
    intro nodes lacking
    obtain ⟨value, fine⟩ := exists_ok_of_mapM done nodes nodes.mem_all
    rw [point_eq_error_iff.mpr ⟨lacking, rfl⟩] at fine
    cases fine
  rw [series_of_not_lacksPeak peaks] at found
  cases found
  rfl

theorem not_lacksPeak_of_suits (suits : ∀ cell, (index.get cell).Suits .lsm) (nodes : NodeCount) :
    ¬ index.LacksPeak op stripes size nodes := by
  intro lacking
  obtain ⟨record, single, _⟩ := lacking
  rcases suits { nodes := nodes, stripes := stripes, size := size } with empty | ⟨other, summed⟩
  · rw [single] at empty
    cases empty
  · rw [single] at summed
    cases summed

end Index

namespace CommandLine

theorem withIndex_error {disk : Disk} {root : Path} {dialect : Dialect} {error : RootUnreadable}
    (failed : Index.build disk.fileSystem root dialect = .error error)
    (next : Index → List String → Result) :
    withIndex disk root dialect next = .failure disk [] error.message := by
  rw [withIndex, failed]

/-- Whatever is asked for below a root that cannot be listed, this is all that is reported. -/
theorem run_of_unlisted {disk : Disk} {request : Request} {fault : Fault}
    (unlisted : disk.fileSystem.list request.root = .error fault)
    (below : ∀ report selection, request.command ≠ .summary report selection) :
    request.run disk = .failure disk []
      ({ path := request.root, fault := fault } : RootUnreadable).message := by
  have noIndex := fun dialect =>
    (@Index.build_eq_error_iff _ _ dialect _).mpr ⟨fault, unlisted, rfl⟩
  have noCatalog := Catalog.build_eq_error_iff.mpr ⟨fault, unlisted, rfl⟩
  unfold Request.run
  cases asked : request.command with
  | tree => simp only [runTree, noCatalog]
  | series selection => exact withIndex_error (noIndex request.dialect) _
  | exporting output => exact withIndex_error (noIndex request.dialect) _
  | summary report selection => exact absurd asked (below report selection)

theorem runExport_ok {disk written : Disk} {root : Path} {dialect : Dialect} {index : Index}
    {anomalies : List Anomaly}
    (built : Index.build disk.fileSystem root dialect = .ok (index, anomalies))
    (output : Option Path)
    (writes : output.elim (.ok disk) (fun path =>
      disk.write path (String.ofList (Export.text index))) = .ok written) :
    runExport disk root dialect output = .success written (reports anomalies)
      (if output.isNone then String.ofList (Export.text index) else "") := by
  unfold runExport withIndex
  rw [built]
  cases output with
  | none =>
    cases writes
    rfl
  | some path =>
    have done : disk.write path (String.ofList (Export.text index)) = .ok written := writes
    dsimp only
    rw [done]
    rfl

end CommandLine

theorem Export.length_fields_of_mem_rows_text {index : Index} {row : Csv.Row}
    (member : row ∈ Csv.rows (text index)) : row.fields.length = headerFields.length := by
  have listed : row.fields ∈ headerFields :: (rows index).map Row.fields :=
    fields_rows_text index ▸ List.mem_map_of_mem member
  rcases List.mem_cons.mp listed with same | written
  · rw [same]
  · obtain ⟨_, _, same⟩ := List.mem_map.mp written
    have names : headerFields.length = 7 := by decide
    rw [← same, names]
    rfl

/-- Of a tree of files only the root has to be readable: a command that cannot list it reports that
and nothing else, and below any other root there is an index. Its records are of the kind of the
dialect, it can be exported, and its series fail only for want of a peak. -/
theorem Index.build_contains (files : FileSystem) (root : Path) (dialect : Dialect) :
    (∀ error, build files root dialect = .error error ↔
      ∃ fault, files.list root = .error fault ∧ error = { path := root, fault := fault }) ∧
    (∀ (disk : Disk) (request : CommandLine.Request) error, disk.fileSystem = files →
      request.root = root → (∀ report selection, request.command ≠ .summary report selection) →
      build files root dialect = .error error →
      request.run disk =
        { status := 1, output := "", errors := [Text.shown error.message], disk := disk }) ∧
    ∀ listed, files.list root = .ok listed →
      ∃ index anomalies, build files root dialect = .ok (index, anomalies) ∧
        (∀ cell, index.get cell = .empty ∨
          match dialect with
          | .ior => ∃ record, index.get cell = .single record
          | .lsm => ∃ record, index.get cell = .summed record) ∧
        (∀ row ∈ Csv.rows (Export.text index),
          row.fields.length = Export.headerFields.length) ∧
        (∀ disk written output, disk.fileSystem = files →
          output.elim (.ok disk) (fun path =>
            disk.write path (String.ofList (Export.text index))) = .ok written →
          CommandLine.runExport disk root dialect output =
            .success written (CommandLine.reports anomalies)
              (if output.isNone then String.ofList (Export.text index) else "")) ∧
        ∀ op stripes size,
          (∀ error, index.series op stripes size = .error error ↔
            dialect = .ior ∧ ∃ nodes, index.LacksPeak op stripes size nodes ∧
              (∀ fewer : NodeCount, fewer.nodes < nodes.nodes →
                ¬ index.LacksPeak op stripes size fewer) ∧
              error = { nodes := nodes.nodes, column := Ior.maxColumn }) ∧
          ((dialect = .lsm ∨ ∀ nodes, ¬ index.LacksPeak op stripes size nodes) →
            ∃ series, index.series op stripes size = .ok series ∧
              series.points.map (·.1) = [1, 2, 4, 8, 16, 24, 32, 40, 48] ∧
              series.points = NodeCount.all.map fun nodes => (nodes.nodes,
                index.peakOf op { nodes := nodes, stripes := stripes, size := size })) := by
  refine ⟨fun error => build_eq_error_iff, ?_, fun listed listable => ?_⟩
  · intro disk request error same here below failed
    subst same here
    obtain ⟨fault, unlisted, rfl⟩ := build_eq_error_iff.mp failed
    exact CommandLine.run_of_unlisted unlisted below
  · obtain ⟨index, anomalies, built⟩ := build_of_listed listable dialect
    have suits := suits_of_build built
    have column := dialect_of_build built
    refine ⟨index, anomalies, built, suits, fun _ => Export.length_fields_of_mem_rows_text, ?_,
      fun op stripes size => ⟨fun error => ?_, ?_⟩⟩
    · intro disk written output same writes
      subst same
      exact CommandLine.runExport_ok built output writes
    · rw [series_eq_error_iff, column]
      cases dialect with
      | ior => simp [Dialect.peakColumn]
      | lsm => simp [not_lacksPeak_of_suits suits]
    · intro given
      have peaks : ∀ nodes, ¬ index.LacksPeak op stripes size nodes := by
        rcases given with rfl | none
        · exact not_lacksPeak_of_suits suits
        · exact none
      refine ⟨_, series_of_not_lacksPeak peaks, ?_, rfl⟩
      rw [List.map_map]
      rfl

end Campaign
