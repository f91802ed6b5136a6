import Campaign.Proofs.Accounting

namespace Campaign.Catalog

variable {root : Path} {entries : List (String × Entry)} {nodes name : String}

def HasRun (entries : List (String × Entry)) (nodes name : String) (runName : RunName) : Prop :=
  RunName.recognize name = .ok runName ∧
    ∃ date size, (Entry.directory entries).at? [nodes, date, name] = some (.file size)

theorem at?_eq_some_iff (ordered : Throughout Ascending entries) {date : String} {entry : Entry} :
    (Entry.directory entries).at? [nodes, date, name] = some entry ↔
      .ofDate nodes date name entry ∈ places entries := by
  have steps : [nodes, date, name] = ([] ++ [nodes]) ++ [date] ++ [name] := rfl
  rw [ofDate_mem_places, steps, Entry.at?_concat_eq_some_iff]
  constructor
  · intro given
    obtain ⟨files, found, inFiles⟩ := given
    obtain ⟨dates, found, inDates⟩ := Entry.at?_concat_eq_some_iff.mp found
    obtain ⟨_, here, inEntries⟩ := Entry.at?_concat_eq_some_iff.mp found
    cases here
    rw [ordered.here.lookup_eq_some_iff] at inEntries
    have below := ordered.inside inEntries
    rw [below.here.lookup_eq_some_iff] at inDates
    rw [(below.inside inDates).here.lookup_eq_some_iff] at inFiles
    exact ⟨dates, files, inEntries, inDates, inFiles⟩
  · intro given
    obtain ⟨dates, files, inEntries, inDates, inFiles⟩ := given
    have below := ordered.inside inEntries
    refine ⟨files, ?_, (below.inside inDates).here.lookup_eq_some_iff.mpr inFiles⟩
    refine Entry.at?_concat_eq_some_iff.mpr ⟨dates, ?_, below.here.lookup_eq_some_iff.mpr inDates⟩
    refine Entry.at?_concat_eq_some_iff.mpr ⟨entries, rfl, ?_⟩
    exact ordered.here.lookup_eq_some_iff.mpr inEntries

theorem hasRun_iff (ordered : Throughout Ascending entries) {runName : RunName} :
    HasRun entries nodes name runName ↔
      RunName.recognize name = .ok runName ∧
        ∃ date size, .ofDate nodes date name (.file size) ∈ places entries := by
  simp only [HasRun, at?_eq_some_iff ordered]

theorem isSome_classes_iff (root : Path) (ordered : Throughout Ascending entries) :
    ((ofEntries root entries).classes.get? nodes).isSome ↔
      ∃ dates, (Entry.directory entries).at? [nodes] = some (.directory dates) := by
  have classes : ∀ dates, (Entry.directory entries).at? [nodes] = some (.directory dates) ↔
      (nodes, Entry.directory dates) ∈ entries := by
    intro dates
    rw [← ordered.here.lookup_eq_some_iff]
    simp [Entry.at?_directory_cons]
  simp only [classes, Option.isSome_iff_exists, get?_classes_eq_some_iff ordered.here]
  constructor
  · intro given
    obtain ⟨_, dates, inEntries, _⟩ := given
    exact ⟨dates, inEntries⟩
  · intro given
    obtain ⟨dates, inEntries⟩ := given
    exact ⟨_, dates, inEntries, rfl⟩

theorem dense_foldl_addPlace (root : Path) (places : List Place) {files : ClassOutputs}
    (dense : Table.Dense files) : Table.Dense (places.foldl (addPlace root) files) := by
  induction places generalizing files with
  | nil => exact dense
  | cons place rest ih =>
    refine ih ?_
    cases output : place.output? root with
    | none => rwa [addPlace_of_none output]
    | some file =>
      obtain ⟨_, _, name, rfl, _⟩ := Place.output?_eq_some_iff.mp output
      rw [addPlace_of_some output]
      exact dense.insertIn _ _ _ _

section

variable {counts : ClassOutputs} (ordered : Throughout Ascending entries)
  (found : (ofEntries root entries).classes.get? nodes = some counts)

include ordered found

theorem dense_of_get?_classes : Table.Dense counts := by
  obtain ⟨_, _, rfl⟩ := (get?_classes_eq_some_iff ordered.here).mp found
  exact dense_foldl_addPlace root _ Table.dense_empty

theorem exists_getIn?_iff {count : Nat} {size : String} :
    (∃ file, counts.getIn? count size name = some file) ↔
      ∃ runName, HasRun entries nodes name runName ∧ runName.stripeCount = count ∧
        runName.stripeSize = size := by
  simp only [hasRun_iff ordered]
  constructor
  · intro given
    obtain ⟨file, held⟩ := given
    have looked : (ofEntries root entries).file? nodes count size name = some file := by
      rw [file?_eq, found, Option.bind_some, held]
    obtain ⟨date, inPlaces, recognized, _, counts, sizes, _⟩ := (file?_eq_some_iff ordered).mp looked
    exact ⟨file.name, ⟨recognized, date, file.size, inPlaces⟩, counts, sizes⟩
  · intro given
    obtain ⟨runName, ⟨recognized, date, size, inPlaces⟩, rfl, rfl⟩ := given
    obtain ⟨dates, inEntries, rfl⟩ := (get?_classes_eq_some_iff ordered.here).mp found
    rw [← ofDate_mem_placesOfClass ordered.here inEntries] at inPlaces
    rw [← Option.isSome_iff_exists,
      isSome_getIn?_foldl_addPlace root (allBelow_placesOfClass nodes _) recognized]
    refine List.mem_filterMap.mpr ⟨_, inPlaces, ?_⟩
    exact Place.key?_eq_some_iff.mpr ⟨date, size, runName, rfl, recognized⟩

theorem isSome_get?_count_iff {count : Nat} :
    (counts.get? count).isSome ↔
      ∃ name runName, HasRun entries nodes name runName ∧ runName.stripeCount = count := by
  rw [(dense_of_get?_classes ordered found).isSome_get?_iff]
  simp only [exists_getIn?_iff ordered found]
  constructor
  · intro given
    obtain ⟨_, name, runName, held, counts, _⟩ := given
    exact ⟨name, runName, held, counts⟩
  · intro given
    obtain ⟨name, runName, held, counts⟩ := given
    exact ⟨runName.stripeSize, name, runName, held, counts, rfl⟩

theorem isSome_get?_size_iff {count : Nat} {size : String} :
    ((counts.get? count).bind fun sizes => sizes.get? size).isSome ↔
      ∃ name runName, HasRun entries nodes name runName ∧ runName.stripeCount = count ∧
        runName.stripeSize = size := by
  rw [(dense_of_get?_classes ordered found).isSome_get?_bind_iff]
  simp only [exists_getIn?_iff ordered found]

end

section

variable {catalog : Catalog} {cell : Cell}

theorem outputs_eq_nodeCount_iff :
    catalog.outputs cell = .error .nodeCount ↔
      ¬ (catalog.classes.get? cell.nodes.label).isSome := by
  unfold outputs
  grind

theorem outputs_eq_stripeCount_iff :
    catalog.outputs cell = .error .stripeCount ↔
      ∃ counts, catalog.classes.get? cell.nodes.label = some counts ∧
        ¬ (counts.get? cell.stripes.count).isSome := by
  unfold outputs
  grind

theorem outputs_eq_stripeSize_iff :
    catalog.outputs cell = .error .stripeSize ↔
      ∃ counts, catalog.classes.get? cell.nodes.label = some counts ∧
        (counts.get? cell.stripes.count).isSome ∧
        ¬ ((counts.get? cell.stripes.count).bind fun sizes => sizes.get? cell.size.label).isSome := by
  unfold outputs
  grind

theorem outputs_eq_ok_iff {files : CellOutputs} :
    catalog.outputs cell = .ok files ↔
      ∃ counts, catalog.classes.get? cell.nodes.label = some counts ∧
        (counts.get? cell.stripes.count).bind (fun sizes => sizes.get? cell.size.label) =
          some files := by
  unfold outputs
  grind

theorem toOption_outputs (catalog : Catalog) (cell : Cell) :
    (catalog.outputs cell).toOption =
      catalog.files? cell.nodes.label cell.stripes.count cell.size.label := by
  unfold outputs files?
  cases first : catalog.classes.get? cell.nodes.label with
  | none => rfl
  | some counts =>
    cases second : counts.get? cell.stripes.count with
    | none => simp [second, Except.toOption]
    | some sizes => cases third : sizes.get? cell.size.label <;> simp [second, third, Except.toOption]

end

/-- What the lookup of a cell comes to: its files, or the first level at which there are none. -/
structure Resolves (entries : List (String × Entry)) (cell : Cell)
    (result : Except CatalogLevel CellOutputs) : Prop where
  nodeCount : result = .error .nodeCount ↔
    ¬ ∃ dates, (Entry.directory entries).at? [cell.nodes.label] = some (.directory dates)
  stripeCount : result = .error .stripeCount ↔
    (∃ dates, (Entry.directory entries).at? [cell.nodes.label] = some (.directory dates)) ∧
      ¬ ∃ name runName, HasRun entries cell.nodes.label name runName ∧
        runName.stripeCount = cell.stripes.count
  stripeSize : result = .error .stripeSize ↔
    (∃ name runName, HasRun entries cell.nodes.label name runName ∧
        runName.stripeCount = cell.stripes.count) ∧
      ¬ ∃ name runName, HasRun entries cell.nodes.label name runName ∧
        runName.stripeCount = cell.stripes.count ∧ runName.stripeSize = cell.size.label
  files : (∃ name runName, HasRun entries cell.nodes.label name runName ∧
      runName.stripeCount = cell.stripes.count ∧ runName.stripeSize = cell.size.label) →
    ∃ files, result = .ok files ∧ ∀ name, (∃ file, files.get? name = some file) ↔
      ∃ runName, HasRun entries cell.nodes.label name runName ∧
        runName.stripeCount = cell.stripes.count ∧ runName.stripeSize = cell.size.label

theorem HasRun.exists_dates {runName : RunName} (held : HasRun entries nodes name runName) :
    ∃ dates, (Entry.directory entries).at? [nodes] = some (.directory dates) := by
  obtain ⟨_, date, size, found⟩ := held
  have steps : [nodes, date, name] = [nodes] ++ [date] ++ [name] := rfl
  rw [steps, Entry.at?_concat_eq_some_iff] at found
  obtain ⟨_, found, _⟩ := found
  obtain ⟨dates, found, _⟩ := Entry.at?_concat_eq_some_iff.mp found
  exact ⟨dates, found⟩

theorem resolves_outputs (root : Path) (ordered : Throughout Ascending entries) (cell : Cell) :
    Resolves entries cell ((ofEntries root entries).outputs cell) where
  nodeCount := outputs_eq_nodeCount_iff.trans (not_congr (isSome_classes_iff root ordered))
  stripeCount := by
    rw [outputs_eq_stripeCount_iff, ← isSome_classes_iff root ordered,
      Option.isSome_iff_exists]
    constructor
    · intro given
      obtain ⟨counts, found, nothing⟩ := given
      exact ⟨⟨counts, found⟩, mt (isSome_get?_count_iff ordered found).mpr nothing⟩
    · intro given
      obtain ⟨⟨counts, found⟩, nothing⟩ := given
      exact ⟨counts, found, mt (isSome_get?_count_iff ordered found).mp nothing⟩
  stripeSize := by
    rw [outputs_eq_stripeSize_iff]
    constructor
    · intro given
      obtain ⟨counts, found, counted, nothing⟩ := given
      exact ⟨(isSome_get?_count_iff ordered found).mp counted,
        mt (isSome_get?_size_iff ordered found).mpr nothing⟩
    · intro given
      obtain ⟨⟨name, runName, held, same⟩, nothing⟩ := given
      obtain ⟨counts, found⟩ := Option.isSome_iff_exists.mp
        ((isSome_classes_iff root ordered).mpr held.exists_dates)
      exact ⟨counts, found, (isSome_get?_count_iff ordered found).mpr ⟨name, runName, held, same⟩,
        mt (isSome_get?_size_iff ordered found).mp nothing⟩
  files := by
    intro given
    obtain ⟨name, runName, held, keys⟩ := given
    obtain ⟨counts, found⟩ := Option.isSome_iff_exists.mp
      ((isSome_classes_iff root ordered).mpr held.exists_dates)
    obtain ⟨files, last⟩ := Option.isSome_iff_exists.mp
      ((isSome_get?_size_iff ordered found).mpr ⟨name, runName, held, keys⟩)
    refine ⟨files, outputs_eq_ok_iff.mpr ⟨counts, found, last⟩, fun other => ?_⟩
    rw [← exists_getIn?_iff ordered found, Table.getIn?, last, Option.bind_some]

/-- In the catalog of any entries no table is empty but those of whole classes, every file stands
where its name and its path say, and the lookups of cells answer for what is below the root. -/
theorem ofEntries_lookups (root : Path) (ordered : Throughout Ascending entries) :
    (∀ nodes counts, (ofEntries root entries).classes.get? nodes = some counts →
      Table.Dense counts) ∧
    (∀ nodes count size files name file,
      (ofEntries root entries).files? nodes count size = some files →
      files.get? name = some file →
      RunName.recognize name = .ok file.name ∧ file.name.stripeCount = count ∧
        file.name.stripeSize = size ∧
        ∃ date, file.path = ((root.join nodes).join date).join name ∧
          (Entry.directory entries).at? [nodes, date, name] = some (.file file.size)) ∧
    ∀ cell, Resolves entries cell ((ofEntries root entries).outputs cell) ∧
      (ofEntries root entries).files? cell.nodes.label cell.stripes.count cell.size.label =
        ((ofEntries root entries).outputs cell).toOption := by
  refine ⟨fun nodes counts found => dense_of_get?_classes ordered found, ?_, fun cell => ?_⟩
  · intro nodes count size files name file found held
    have looked : (ofEntries root entries).file? nodes count size name = some file := by
      rw [file?, found, Option.bind_some, held]
    obtain ⟨date, inPlaces, recognized, path, counts, sizes, _⟩ :=
      (file?_eq_some_iff ordered).mp looked
    exact ⟨recognized, counts, sizes, date, path, (at?_eq_some_iff ordered).mpr inPlaces⟩
  · exact ⟨resolves_outputs root ordered cell, (toOption_outputs _ cell).symm⟩

theorem ofEntries_lookups_repeatedName :
    Throughout Ascending repeatedName ∧
      (∃ files, (ofEntries (Path.ofText "/out") repeatedName).outputs
          { nodes := .n1, stripes := .four, size := .m1 } = .ok files ∧
        ∃ file, files.get? "out-a-4-1M-2023-07-21-n1-0.txt.1" = some file) ∧
      (ofEntries (Path.ofText "/out") repeatedName).outputs
        { nodes := .n2, stripes := .four, size := .m1 } = .error .nodeCount := by
  obtain ⟨_, _, cells⟩ := ofEntries_lookups (Path.ofText "/out") ascending_repeatedName
  have run : HasRun repeatedName "1" "out-a-4-1M-2023-07-21-n1-0.txt.1"
      { label := "a", stripeCount := 4, stripeSize := "1M", date := "2023-07-21",
        host := "n1", rank := 0, ext := "txt", sequence := 1 } :=
    ⟨by decide +kernel, "2023-07-21", 1, rfl⟩
  refine ⟨ascending_repeatedName, ?_, ?_⟩
  · obtain ⟨files, found, names⟩ :=
      (cells { nodes := .n1, stripes := .four, size := .m1 }).1.files ⟨_, _, run, rfl, rfl⟩
    exact ⟨files, found, (names _).mpr ⟨_, run, rfl, rfl⟩⟩
  · rw [(cells { nodes := .n2, stripes := .four, size := .m1 }).1.nodeCount]
    intro given
    obtain ⟨_, found⟩ := given
    have missing : (Entry.directory repeatedName).at? ["2"] = none := rfl
    cases missing.symm.trans found

end Campaign.Catalog
