import Campaign.Proofs.Attribution
import Mathlib.Data.List.Induction

namespace Campaign.MemoryTree

/-- What holds of a tree after files were added at different places. -/
structure Stores (tree : MemoryTree) (files : List (Path × String)) : Prop where
  closed : tree.Closed
  hasFile_iff : ∀ trail content, tree.HasFile trail content ↔
    ∃ file ∈ files, file.1.trail = trail ∧ file.2 = content
  shorter : ∀ trail, tree.HasDirectory trail → ∃ file ∈ files, trail.length < file.1.trail.length
  vanished : tree.vanished = []
  links : tree.links = []

theorem length_lt_of_mem_ancestors {path above : Path} (member : above ∈ ancestors path) :
    above.trail.length < path.trail.length := by
  have within : ∀ limit (path : Path), above ∈ ancestorsWithin limit path →
      above.trail.length < path.trail.length := by
    intro limit
    induction limit with
    | zero => exact fun _ absurdly => absurd absurdly List.not_mem_nil
    | succ limit ih =>
      intro path member
      unfold ancestorsWithin at member
      split at member
      · exact absurd member List.not_mem_nil
      · rename_i parent found
        obtain ⟨last, steps⟩ := Path.trail_of_parent? found
        have longer : path.trail.length = parent.trail.length + 1 := by
          rw [steps, List.length_cons]
        rcases List.mem_cons.mp member with rfl | higher
        · omega
        · have shorter := ih parent higher
          omega
  exact within path.depth path (List.mem_filter.mp member).1

section

variable {tree : MemoryTree} {files : List (Path × String)}

theorem stores_empty : empty.Stores [] where
  closed := closed_after []
  hasFile_iff := by
    intro trail content
    constructor
    · intro absurdly
      obtain ⟨_, member, _⟩ := absurdly
      exact absurd member List.not_mem_nil
    · intro absurdly
      obtain ⟨_, member, _⟩ := absurdly
      exact absurd member List.not_mem_nil
  shorter := by
    intro trail absurdly
    obtain ⟨_, member, _⟩ := absurdly
    exact absurd member List.not_mem_nil
  vanished := rfl
  links := rfl

theorem Stores.addFile (stores : tree.Stores files) {path : Path} (content : String)
    (apart : ∀ file ∈ files, file.1.trail ≠ path.trail) :
    (tree.addFile path content).Stores (files ++ [(path, content)]) := by
  have free : ¬ leadsTo ((tree.addAncestors path).files.map (·.1)) path = true := by
    intro taken
    obtain ⟨stored, inFiles, same⟩ := leadsTo_iff.mp taken
    obtain ⟨⟨other, text⟩, member, rfl⟩ := List.mem_map.mp inFiles
    obtain ⟨file, known, trail, _⟩ := (stores.hasFile_iff other.trail text).mp ⟨other, member, rfl⟩
    exact apart file known (trail.trans same)
  have added : tree.addFile path content =
      { tree.addAncestors path with files := (path, content) :: tree.files } := by
    simp only [MemoryTree.addFile]
    exact if_neg free
  refine ⟨stores.closed.addFile path content, ?_, ?_, ?_, ?_⟩
  · intro trail text
    have either : (tree.addFile path content).HasFile trail text ↔
        (path.trail = trail ∧ content = text) ∨ tree.HasFile trail text := by
      rw [added]
      simp only [HasFile, List.mem_cons, Prod.mk.injEq]
      constructor
      · intro given
        obtain ⟨stored, ⟨rfl, rfl⟩ | old, steps⟩ := given
        · exact Or.inl ⟨steps, rfl⟩
        · exact Or.inr ⟨stored, old, steps⟩
      · intro given
        rcases given with ⟨steps, rfl⟩ | ⟨stored, old, steps⟩
        · exact ⟨path, Or.inl ⟨rfl, rfl⟩, steps⟩
        · exact ⟨stored, Or.inr old, steps⟩
    rw [either, stores.hasFile_iff]
    simp only [List.mem_append, List.mem_singleton, or_and_right, exists_or, exists_eq_left]
    exact or_comm
  · intro trail there
    rw [added] at there
    obtain ⟨directory, member, rfl⟩ := there
    rcases mem_foldl_addPath member with old | above
    · obtain ⟨file, known, shorter⟩ := stores.shorter directory.trail ⟨directory, old, rfl⟩
      exact ⟨file, List.mem_append_left _ known, shorter⟩
    · exact ⟨_, List.mem_append_right _ (List.mem_singleton_self _),
        length_lt_of_mem_ancestors above⟩
  · rw [added]
    exact stores.vanished
  · rw [added]
    exact stores.links

theorem stores_foldl (apart : (files.map fun file => file.1.trail).Nodup) :
    (files.foldl (fun tree file => tree.addFile file.1 file.2) empty).Stores files := by
  induction files using List.reverseRecOn with
  | nil => exact stores_empty
  | append_singleton files last ih =>
    rw [List.map_append, List.nodup_append] at apart
    rw [List.foldl_append]
    apply (ih apart.1).addFile last.2
    intro file member
    exact apart.2.2 _ (List.mem_map_of_mem member) _ (List.mem_singleton_self _)

theorem Stores.readText (stores : tree.Stores files) {path : Path} {content : String}
    (member : (path, content) ∈ files) : tree.fileSystem.readText path = .ok content := by
  have there := (stores.hasFile_iff path.trail content).mpr ⟨_, member, rfl, rfl⟩
  have found := (contentAt?_eq_some_iff stores.closed).mpr there
  show tree.readText path = _
  rw [MemoryTree.readText, found]

theorem Stores.not_hasLink (stores : tree.Stores files) (trail : List Component) :
    ¬ tree.HasLink trail := by
  intro linked
  obtain ⟨link, member, _⟩ := linked
  rw [stores.links] at member
  exact absurd member List.not_mem_nil

theorem Stores.visit_silent (stores : tree.Stores files) {path : Path} (stored : path ∈ tree.paths)
    {inside : Path → Except Fault Snapshot}
    (below : tree.isDirectory path = true →
      ∃ snapshot, inside path = .ok snapshot ∧ snapshot.anomalies = []) :
    (Snapshot.visit tree.fileSystem inside path).anomalies = [] := by
  have noLink : tree.fileSystem.isLink path = false := by
    rw [← Bool.not_eq_true]
    exact fun linked => stores.not_hasLink _ (isLink_iff.mp linked)
  unfold Snapshot.visit
  split
  · rfl
  · split
    · rename_i directory
      obtain ⟨snapshot, opened, silent⟩ := below directory
      rw [noLink, opened]
      exact silent
    · rename_i noDirectory
      -- What is listed and is no directory is a file, whose size is known.
      have file : path ∈ tree.files.map (·.1) := by
        rcases List.mem_append.mp stored with entry | directory
        · rw [stores.vanished, List.append_nil] at entry
          exact entry
        · exact absurd (isDirectory_iff.mpr ⟨path, directory, rfl⟩) noDirectory
      obtain ⟨⟨_, content⟩, member, rfl⟩ := List.mem_map.mp file
      rw [(size_eq_ok_iff stores.closed).mpr ⟨content, ⟨_, member, rfl⟩, rfl⟩]
      rfl

theorem Stores.snapshotOf_silent (stores : tree.Stores files) {directory : Path}
    (given : tree.isDirectory directory = true) : (tree.snapshotOf directory).anomalies = [] := by
  induction room : tree.fileSystem.room directory using Nat.strongRecOn generalizing directory with
  | ind room ih =>
    refine List.flatMap_eq_nil_iff.mpr fun visit member => ?_
    obtain ⟨path, listed, rfl⟩ := List.mem_map.mp member
    apply stores.visit_silent (isEntryOf_of_mem_entries listed).1
    intro inside
    have noLink : tree.fileSystem.isLink path = false := by
      rw [← Bool.not_eq_true]
      exact fun linked => stores.not_hasLink _ (isLink_iff.mp linked)
    have nearer := tree.fileSystem.room_lt (list_fileSystem given) listed inside noLink
    refine ⟨tree.snapshotOf path, ?_, ih _ (room ▸ nearer) inside rfl⟩
    rw [within_fileSystem, if_pos inside]

theorem Stores.isDirectory (stores : tree.Stores files) {root : Path} {nodes date name content : String}
    (given : root.trail ≠ []) (stored : tree.HasFile (stepsTo root nodes date name) content) :
    tree.isDirectory root = true := by
  obtain ⟨⟨directory, member, steps⟩, _⟩ := stores.closed.directories_of_file stored
  have housed := stores.closed.houses directory (List.mem_append_right _ member) _ _ steps given
  exact isDirectory_iff.mpr housed

theorem Stores.place_silent (stores : tree.Stores files) {root : Path}
    (deep : ∀ file ∈ files, file.1.trail.length = root.trail.length + 3)
    (named : ∀ nodes date name content, tree.HasFile (stepsTo root nodes date name) content →
      ∃ runName, RunName.recognize name = .ok runName)
    {entries : List (String × Entry)} (walked : tree.Walked root entries) {place : Place}
    (member : place ∈ places entries) : place.anomaly? root = none := by
  -- A file that is not three levels down, or a directory that is, would be at the wrong depth.
  have level : ∀ trail content, tree.HasFile trail content →
      trail.length = root.trail.length + 3 := by
    intro trail content stored
    obtain ⟨file, known, rfl, _⟩ := (stores.hasFile_iff trail content).mp stored
    exact deep file known
  obtain ⟨⟨nodes, outer⟩, inEntries, below⟩ := List.mem_flatMap.mp member
  cases outer with
  | file size =>
    obtain ⟨_, content, stored, _⟩ := (walked.file_mem_iff stores.closed).mp inEntries
    have short := level _ content stored
    rw [List.length_cons] at short
    omega
  | directory dates =>
    obtain ⟨_, classPath, _, classSteps, classWalk⟩ := walked.directory_mem_iff.mp inEntries
    rcases List.mem_cons.mp below with rfl | below
    · rfl
    · obtain ⟨⟨date, middle⟩, inDates, below⟩ := List.mem_flatMap.mp below
      cases middle with
      | file size =>
        obtain ⟨_, content, stored, _⟩ := (classWalk.file_mem_iff stores.closed).mp inDates
        have short := level _ content stored
        rw [classSteps, List.length_cons, List.length_cons] at short
        omega
      | directory names =>
        obtain ⟨_, datePath, _, dateSteps, dateWalk⟩ := classWalk.directory_mem_iff.mp inDates
        rcases List.mem_cons.mp below with rfl | below
        · rfl
        · obtain ⟨⟨name, inner⟩, inNames, rfl⟩ := List.mem_map.mp below
          cases inner with
          | file size =>
            obtain ⟨_, content, stored, _⟩ := (dateWalk.file_mem_iff stores.closed).mp inNames
            rw [dateSteps, classSteps] at stored
            obtain ⟨runName, recognized⟩ := named nodes date name content stored
            simp only [Place.anomaly?, recognized]
          | directory nested =>
            obtain ⟨_, path, _, steps, walk⟩ := dateWalk.directory_mem_iff.mp inNames
            have there := isDirectory_iff.mp (walked_iff.mp walk).1
            obtain ⟨file, known, shorter⟩ := stores.shorter path.trail there
            rw [deep file known, steps, dateSteps, classSteps] at shorter
            simp only [List.length_cons] at shorter
            omega

theorem Stores.catalog_build (stores : tree.Stores files) {root : Path}
    (given : tree.isDirectory root = true)
    (deep : ∀ file ∈ files, file.1.trail.length = root.trail.length + 3)
    (named : ∀ nodes date name content, tree.HasFile (stepsTo root nodes date name) content →
      ∃ runName, RunName.recognize name = .ok runName) :
    ∃ entries, tree.Walked root entries ∧ Throughout IsListing entries ∧
      Catalog.build tree.fileSystem root = .ok (Catalog.ofEntries root entries, []) := by
  have opened : Snapshot.within tree.fileSystem (tree.fileSystem.room root) root =
      .ok (tree.snapshotOf root) := by
    rw [within_fileSystem, if_pos given]
  have walked : tree.Walked root (tree.snapshotOf root).entries := ⟨_, opened, rfl⟩
  have quiet : Catalog.anomaliesOf root (tree.snapshotOf root).entries = [] := by
    rw [Catalog.anomaliesOf_eq, List.filterMap_eq_nil_iff]
    exact fun place member => stores.place_silent deep named walked member
  refine ⟨_, walked, (Snapshot.within_keeps opened).1, ?_⟩
  rw [Catalog.build, Snapshot.take_eq_ok_iff.mpr opened]
  simp only [Except.map, stores.snapshotOf_silent given, quiet, List.append_nil]

end

end Campaign.MemoryTree
