import Campaign.Proofs.Diagnostics
import Campaign.Proofs.Walks

namespace Campaign.MemoryTree

variable {tree : MemoryTree} {root : Path} {cell : Cell}

def stepsTo (root : Path) (nodes date name : String) : List Component :=
  .name name :: .name date :: .name nodes :: root.trail

/-- A file of a cell: it stands in a date directory of the node count of the cell, no link leads to
it, and its name gives the stripes of the cell. -/
structure Belongs (tree : MemoryTree) (root : Path) (cell : Cell) (date name content : String) :
    Prop where
  stored : tree.HasFile (stepsTo root cell.nodes.label date name) content
  classNoLink : ¬ tree.HasLink (.name cell.nodes.label :: root.trail)
  dateNoLink : ¬ tree.HasLink (.name date :: .name cell.nodes.label :: root.trail)
  noDirectory : ¬ tree.HasDirectory (stepsTo root cell.nodes.label date name)
  named : ∃ runName, RunName.recognize name = .ok runName ∧
    runName.stripeCount = cell.stripes.count ∧ runName.stripeSize = cell.size.label

/-- The output file of a name in a cell: that of the latest date. -/
def Attributed (tree : MemoryTree) (root : Path) (cell : Cell) (name : String) (file : OutputFile) :
    Prop :=
  ∃ date content, tree.Belongs root cell date name content ∧
    (∀ later other, tree.Belongs root cell later name other → ¬ date < later) ∧
    file.size = content.utf8ByteSize ∧
    file.path = ((root.join cell.nodes.label).join date).join name ∧
    RunName.recognize name = .ok file.name

theorem Closed.directories_of_file (closed : tree.Closed) {nodes date name content : String}
    (stored : tree.HasFile (stepsTo root nodes date name) content) :
    tree.HasDirectory (.name nodes :: root.trail) ∧
      tree.HasDirectory (.name date :: .name nodes :: root.trail) := by
  obtain ⟨path, inFiles, steps⟩ := stored
  have known : path ∈ tree.paths := List.mem_append_left _ (List.mem_append_left _
    (List.mem_map.mpr ⟨_, inFiles, rfl⟩))
  have inner := closed.houses path known _ _ steps (List.cons_ne_nil _ _)
  obtain ⟨directory, inDirectories, trail⟩ := inner
  have outer := closed.houses directory (List.mem_append_right _ inDirectories) _ _ trail
    (List.cons_ne_nil _ _)
  exact ⟨outer, ⟨directory, inDirectories, trail⟩⟩

theorem Walked.file_mem_places_iff {entries : List (String × Entry)}
    (walked : tree.Walked root entries) (closed : tree.Closed) {nodes date name : String}
    {size : Nat} :
    .ofDate nodes date name (.file size) ∈ places entries ↔
      ¬ tree.HasLink (.name nodes :: root.trail) ∧
        ¬ tree.HasLink (.name date :: .name nodes :: root.trail) ∧
        ¬ tree.HasDirectory (stepsTo root nodes date name) ∧
        ∃ content, tree.HasFile (stepsTo root nodes date name) content ∧
          size = content.utf8ByteSize := by
  rw [ofDate_mem_places]
  constructor
  · intro given
    obtain ⟨dates, files, inEntries, inDates, inFiles⟩ := given
    obtain ⟨classNoLink, classPath, _, classSteps, classWalk⟩ :=
      walked.directory_mem_iff.mp inEntries
    obtain ⟨dateNoLink, datePath, _, dateSteps, dateWalk⟩ :=
      classWalk.directory_mem_iff.mp inDates
    have found := (dateWalk.file_mem_iff closed).mp inFiles
    rw [dateSteps, classSteps] at found
    rw [classSteps] at dateNoLink
    exact ⟨classNoLink, dateNoLink, found⟩
  · intro given
    obtain ⟨classNoLink, dateNoLink, noDirectory, content, stored, same⟩ := given
    obtain ⟨classThere, dateThere⟩ := closed.directories_of_file stored
    obtain ⟨classPath, dates, classSteps, classWalk, inEntries⟩ :=
      walked.exists_directory classThere classNoLink
    rw [← classSteps] at dateThere dateNoLink
    obtain ⟨datePath, files, dateSteps, dateWalk, inDates⟩ :=
      classWalk.exists_directory dateThere dateNoLink
    have steps : stepsTo root nodes date name = .name name :: datePath.trail := by
      rw [stepsTo, dateSteps, classSteps]
    rw [steps] at noDirectory stored
    exact ⟨dates, files, inEntries, inDates,
      (dateWalk.file_mem_iff closed).mpr ⟨noDirectory, content, stored, same⟩⟩

theorem Walked.get?_filesOf_iff {entries : List (String × Entry)}
    (walked : tree.Walked root entries) (closed : tree.Closed)
    (ordered : Throughout Ascending entries) {name : String} {file : OutputFile} :
    ((Catalog.ofEntries root entries).filesOf cell).get? name = some file ↔
      tree.Attributed root cell name file := by
  rw [Catalog.get?_filesOf, Catalog.file?_eq_some_iff ordered]
  constructor
  · intro given
    obtain ⟨date, inPlaces, recognized, path, counts, sizes, latest⟩ := given
    obtain ⟨classNoLink, dateNoLink, noDirectory, content, stored, same⟩ :=
      (walked.file_mem_places_iff closed).mp inPlaces
    rw [Place.path_ofDate] at path
    refine ⟨date, content, ⟨stored, classNoLink, dateNoLink, noDirectory, file.name, recognized,
      counts, sizes⟩, ?_, same, path, recognized⟩
    intro later other belongs
    exact latest later other.utf8ByteSize ((walked.file_mem_places_iff closed).mpr
      ⟨belongs.classNoLink, belongs.dateNoLink, belongs.noDirectory, other, belongs.stored, rfl⟩)
  · intro given
    obtain ⟨date, content, belongs, latest, same, path, recognized⟩ := given
    obtain ⟨runName, named, counts, sizes⟩ := belongs.named
    obtain rfl : runName = file.name := Except.ok.inj (named.symm.trans recognized)
    rw [← Place.path_ofDate root cell.nodes.label date name (.file file.size)] at path
    refine ⟨date, (walked.file_mem_places_iff closed).mpr ⟨belongs.classNoLink, belongs.dateNoLink,
      belongs.noDirectory, content, belongs.stored, same⟩, recognized, path, counts, sizes, ?_⟩
    intro later other inPlaces
    obtain ⟨classNoLink, dateNoLink, noDirectory, content, stored, _⟩ :=
      (walked.file_mem_places_iff closed).mp inPlaces
    exact latest later content
      ⟨stored, classNoLink, dateNoLink, noDirectory, file.name, recognized, counts, sizes⟩

theorem readText_of_attributed (closed : tree.Closed) {name : String} {file : OutputFile}
    (attributed : tree.Attributed root cell name file) :
    ∃ date content, tree.Belongs root cell date name content ∧
      file.path.trail = stepsTo root cell.nodes.label date name ∧
      tree.fileSystem.readText file.path = .ok content := by
  obtain ⟨date, content, belongs, _, _, path, _⟩ := attributed
  obtain ⟨stored, inFiles, steps⟩ := belongs.stored
  have plain : ∀ text, .name text ∈ stepsTo root cell.nodes.label date name → IsPlain text := by
    intro text member
    rw [← steps] at member
    exact Path.plain_of_mem_trail member
  have trail : file.path.trail = stepsTo root cell.nodes.label date name := by
    rw [path, Path.trail_join _ (plain name (by simp [stepsTo])),
      Path.trail_join _ (plain date (by simp [stepsTo])),
      Path.trail_join _ (plain cell.nodes.label (by simp [stepsTo]))]
    rfl
  have found : tree.contentAt? file.path = some content := by
    rw [contentAt?_eq_some_iff closed, trail]
    exact belongs.stored
  refine ⟨date, content, belongs, trail, ?_⟩
  show tree.readText file.path = _
  rw [readText, found]

theorem isDirectory_of_build {dialect : Dialect} {index : Index} {anomalies : List Anomaly}
    (built : Index.build tree.fileSystem root dialect = .ok (index, anomalies)) :
    tree.isDirectory root = true := by
  rw [Index.build, Catalog.build, Snapshot.take, within_fileSystem] at built
  by_cases given : tree.isDirectory root = true
  · exact given
  · rw [if_neg given] at built
    cases built

theorem Closed.exists_index (closed : tree.Closed) (given : tree.isDirectory root = true)
    (dialect : Dialect) :
    ∃ index anomalies, Index.build tree.fileSystem root dialect = .ok (index, anomalies) ∧
      ∀ cell, ∃ outputs : CellOutputs,
        (∀ name file, outputs.get? name = some file ↔ tree.Attributed root cell name file) ∧
        index.get cell = (dialect.aggregate tree.fileSystem cell outputs).aggregate := by
  obtain ⟨snapshot, taken⟩ := Snapshot.take_of_listable (list_fileSystem given)
  have opened := Snapshot.take_eq_ok_iff.mp taken
  have walked : tree.Walked root snapshot.entries := ⟨snapshot, opened, rfl⟩
  have ordered := (Snapshot.within_keeps opened).1.mono fun _ listed => listed.ascending
  have catalogued : Catalog.build tree.fileSystem root =
      .ok (Catalog.ofEntries root snapshot.entries,
        snapshot.anomalies ++ Catalog.anomaliesOf root snapshot.entries) := by
    rw [Catalog.build, taken]
    rfl
  refine ⟨_, _, Index.build_of_catalog catalogued, fun cell => ?_⟩
  refine ⟨_, fun name file => walked.get?_filesOf_iff closed ordered, ?_⟩
  rw [Index.get_ofCatalog, Catalog.aggregate_aggregate]

theorem aggregate_eq_of_belongs {other : MemoryTree} (closed : tree.Closed)
    (otherClosed : other.Closed) {outputs others : CellOutputs}
    (same : ∀ date name content,
      tree.Belongs root cell date name content ↔ other.Belongs root cell date name content)
    (held : ∀ name file, outputs.get? name = some file ↔ tree.Attributed root cell name file)
    (otherHeld : ∀ name file,
      others.get? name = some file ↔ other.Attributed root cell name file) (dialect : Dialect) :
    dialect.aggregate tree.fileSystem cell outputs =
      dialect.aggregate other.fileSystem cell others := by
  have tables : outputs = others := by
    apply Table.ext_get?
    intro name
    apply Option.ext
    intro file
    rw [held, otherHeld]
    simp only [Attributed, same]
  subst tables
  apply Dialect.aggregate_congr
  intro file member
  obtain ⟨name, found⟩ := Table.mem_values_iff.mp member
  obtain ⟨date, content, belongs, trail, text⟩ :=
    readText_of_attributed closed ((held name file).mp found)
  obtain ⟨otherDate, otherContent, otherBelongs, otherTrail, otherText⟩ :=
    readText_of_attributed otherClosed ((otherHeld name file).mp found)
  have dates : date = otherDate := by
    have steps := trail.symm.trans otherTrail
    simp only [stepsTo, List.cons.injEq, Component.name.injEq] at steps
    exact steps.2.1
  subst dates
  have contents := closed.content_unique belongs.stored ((same date name otherContent).mpr
    otherBelongs).stored
  rw [text, otherText, contents]

/-- Below a directory of a tree the index holds for each cell the aggregate of the files attributed
to it, and no other file has any influence on the cell. -/
theorem build_attributes (changes : List Change) {root : Path}
    (given : (after changes).isDirectory root = true) (dialect : Dialect) :
    ∃ index anomalies,
      Index.build (after changes).fileSystem root dialect = .ok (index, anomalies) ∧
      (∀ cell, ∃ outputs : CellOutputs,
        (∀ name file,
          outputs.get? name = some file ↔ (after changes).Attributed root cell name file) ∧
        index.get cell = if outputs.isEmpty then .empty
          else (dialect.aggregate (after changes).fileSystem cell outputs).aggregate) ∧
      ∀ others otherIndex otherAnomalies cell,
        Index.build (after others).fileSystem root dialect = .ok (otherIndex, otherAnomalies) →
        (∀ date name content, (after changes).Belongs root cell date name content ↔
          (after others).Belongs root cell date name content) →
        otherIndex.get cell = index.get cell := by
  obtain ⟨index, anomalies, built, cells⟩ := (closed_after changes).exists_index given dialect
  refine ⟨index, anomalies, built, ?_, ?_⟩
  · intro cell
    obtain ⟨outputs, held, record⟩ := cells cell
    refine ⟨outputs, held, ?_⟩
    split
    · rename_i empty
      have nothing : outputs = .empty := Table.ext_get? (Table.isEmpty_iff.mp empty)
      rw [record, nothing]
      cases dialect <;> rfl
    · exact record
  · intro others otherIndex otherAnomalies cell otherBuilt same
    obtain ⟨_, _, rebuilt, otherCells⟩ :=
      (closed_after others).exists_index (isDirectory_of_build otherBuilt) dialect
    obtain ⟨rfl, rfl⟩ := Prod.mk.inj (Except.ok.inj (otherBuilt.symm.trans rebuilt))
    obtain ⟨outputs, held, record⟩ := cells cell
    obtain ⟨_, otherHeld, otherRecord⟩ := otherCells cell
    rw [record, otherRecord, aggregate_eq_of_belongs (closed_after changes) (closed_after others)
      same held otherHeld dialect]

def oneFile : List Change :=
  [.addFile (Path.ofText "/out/1/2023-07-21/out-a-4-1M-2023-07-21-n1-0.txt.1") "x"]

def oneFileCell : Cell := { nodes := .n1, stripes := .four, size := .m1 }

theorem belongs_oneFile_iff {date name content : String} :
    (after oneFile).Belongs (Path.ofText "/out") oneFileCell date name content ↔
      date = "2023-07-21" ∧ name = "out-a-4-1M-2023-07-21-n1-0.txt.1" ∧ content = "x" := by
  have files : (after oneFile).files =
      [(Path.ofText "/out/1/2023-07-21/out-a-4-1M-2023-07-21-n1-0.txt.1", "x")] := by
    decide +kernel
  have steps : (Path.ofText "/out/1/2023-07-21/out-a-4-1M-2023-07-21-n1-0.txt.1").trail =
      stepsTo (Path.ofText "/out") oneFileCell.nodes.label "2023-07-21"
        "out-a-4-1M-2023-07-21-n1-0.txt.1" := by
    decide +kernel
  have links : (after oneFile).links = [] := by decide +kernel
  constructor
  · intro belongs
    obtain ⟨path, member, trail⟩ := belongs.stored
    rw [files] at member
    cases List.mem_singleton.mp member
    rw [steps] at trail
    simp only [stepsTo, List.cons.injEq, Component.name.injEq] at trail
    exact ⟨trail.2.1.symm, trail.1.symm, rfl⟩
  · intro same
    obtain ⟨rfl, rfl, rfl⟩ := same
    refine ⟨⟨_, by rw [files]; exact List.mem_singleton_self _, steps⟩, ?_, ?_, ?_, ?_⟩
    · simp [HasLink, links]
    · simp [HasLink, links]
    · rw [← steps, ← isDirectory_iff]
      decide +kernel
    · refine ⟨{ label := "a", stripeCount := 4, stripeSize := "1M", date := "2023-07-21",
                host := "n1", rank := 0, ext := "txt", sequence := 1 }, ?_, rfl, rfl⟩
      decide +kernel

theorem build_attributes_oneFile :
    (after oneFile).isDirectory (Path.ofText "/out") = true ∧
      ∃ index anomalies,
        Index.build (after oneFile).fileSystem (Path.ofText "/out") .lsm = .ok (index, anomalies) ∧
        ∃ outputs : CellOutputs,
          (∃ file, outputs.get? "out-a-4-1M-2023-07-21-n1-0.txt.1" = some file) ∧
          index.get oneFileCell =
            (Dialect.lsm.aggregate (after oneFile).fileSystem oneFileCell outputs).aggregate := by
  have given : (after oneFile).isDirectory (Path.ofText "/out") = true := by decide +kernel
  refine ⟨given, ?_⟩
  obtain ⟨index, anomalies, built, cells, _⟩ := build_attributes oneFile given .lsm
  obtain ⟨outputs, held, record⟩ := cells oneFileCell
  have belongs := belongs_oneFile_iff.mpr ⟨rfl, rfl, rfl⟩
  obtain ⟨runName, recognized, _⟩ := belongs.named
  have latest : ∀ later other, (after oneFile).Belongs (Path.ofText "/out") oneFileCell later
      "out-a-4-1M-2023-07-21-n1-0.txt.1" other → ¬ "2023-07-21" < later := by
    intro later other also
    rw [(belongs_oneFile_iff.mp also).1]
    exact String.lt_irrefl _
  have size : 1 = "x".utf8ByteSize := by decide
  have file := (held _ { size := 1, path := _, name := runName }).mpr
    ⟨_, _, belongs, latest, size, rfl, recognized⟩
  have some : outputs.isEmpty ≠ true := by
    intro none
    rw [Table.isEmpty_iff.mp none] at file
    cases file
  rw [if_neg some] at record
  exact ⟨index, anomalies, built, outputs, ⟨_, file⟩, record⟩

end Campaign.MemoryTree
