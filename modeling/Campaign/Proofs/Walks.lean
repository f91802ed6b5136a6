import Campaign.Proofs.Places
import Campaign.Proofs.Trees

namespace Campaign.MemoryTree

/-- A walk through a directory of the tree comes back with the entries. -/
def Walked (tree : MemoryTree) (directory : Path) (entries : List (String × Entry)) : Prop :=
  ∃ snapshot, Snapshot.within tree.fileSystem (tree.fileSystem.room directory) directory =
    .ok snapshot ∧ entries = snapshot.entries

variable {tree : MemoryTree} {directory : Path} {entries : List (String × Entry)}

def snapshotOf (tree : MemoryTree) (directory : Path) : Snapshot :=
  .ofVisits ((tree.entries directory).map (Snapshot.visit tree.fileSystem fun path =>
    Snapshot.within tree.fileSystem (tree.fileSystem.room path) path))

theorem within_fileSystem :
    Snapshot.within tree.fileSystem (tree.fileSystem.room directory) directory =
      if tree.isDirectory directory then .ok (tree.snapshotOf directory)
      else .error (.directoryMissing directory) := by
  rw [Snapshot.within_eq _ (Nat.le_refl _)]
  show (tree.list directory).map _ = _
  unfold list
  split <;> rfl

theorem walked_iff :
    tree.Walked directory entries ↔
      tree.isDirectory directory = true ∧ entries = (tree.snapshotOf directory).entries := by
  unfold Walked
  rw [within_fileSystem]
  by_cases given : tree.isDirectory directory = true
  · simp [given]
  · simp [given]

theorem exists_walked (given : tree.isDirectory directory = true) :
    ∃ entries, tree.Walked directory entries :=
  ⟨_, walked_iff.mpr ⟨given, rfl⟩⟩

theorem fileName?_of_mem_entries {path : Path} (member : path ∈ tree.entries directory)
    {name : String} :
    path.fileName? = some name ↔ path.trail = .name name :: directory.trail := by
  obtain ⟨last, _, steps⟩ := isEntryOf_iff.mp (isEntryOf_of_mem_entries member).2
  rw [Path.fileName?_eq_some_iff, steps]
  simp

theorem Walked.mem_iff (walked : tree.Walked directory entries) {name : String} {entry : Entry} :
    (name, entry) ∈ entries ↔
      ∃ path ∈ tree.entries directory, path.trail = .name name :: directory.trail ∧
        ((∃ nested, tree.isLink path = false ∧ tree.Walked path nested ∧
            entry = .directory nested) ∨
          (∃ size, tree.isDirectory path = false ∧ tree.fileSystem.size path = .ok size ∧
            entry = .file size)) := by
  obtain ⟨given, rfl⟩ := walked_iff.mp walked
  have apart : ∀ path ∈ tree.entries directory, ∀ other ∈ tree.entries directory,
      path.fileName? = some name → other.fileName? = some name → path = other := by
    intro path member other inEntries first second
    rw [fileName?_of_mem_entries member] at first
    rw [fileName?_of_mem_entries inEntries] at second
    exact entries_unique member inEntries (first.trans second.symm)
  unfold snapshotOf
  rw [Snapshot.mem_ofVisits_iff apart]
  refine exists_congr fun path => and_congr_right fun member => ?_
  rw [Snapshot.visit_found_iff, fileName?_of_mem_entries member]
  refine and_congr_right fun _ => or_congr ?_ Iff.rfl
  constructor
  · intro found
    obtain ⟨nested, _, noLink, opened, same⟩ := found
    exact ⟨nested.entries, noLink, ⟨nested, opened, rfl⟩, same⟩
  · intro found
    obtain ⟨_, noLink, below, same⟩ := found
    have inside := (walked_iff.mp below).1
    obtain ⟨nested, opened, rfl⟩ := below
    exact ⟨nested, inside, noLink, opened, same⟩

theorem size_eq_ok_iff (closed : tree.Closed) {path : Path} {size : Nat} :
    tree.fileSystem.size path = .ok size ↔
      ∃ content, tree.HasFile path.trail content ∧ size = content.utf8ByteSize := by
  have measured : tree.fileSystem.size path = (tree.readText path).map String.utf8ByteSize := rfl
  rw [measured, readText]
  cases held : tree.contentAt? path with
  | none =>
    have missing : ∀ content, ¬ tree.HasFile path.trail content := by
      intro content there
      rw [(contentAt?_eq_some_iff closed).mpr there] at held
      cases held
    simp [Except.map, missing]
  | some content =>
    have there := (contentAt?_eq_some_iff closed).mp held
    constructor
    · intro given
      cases given
      exact ⟨content, there, rfl⟩
    · intro given
      obtain ⟨other, also, rfl⟩ := given
      rw [closed.content_unique there also]
      rfl

theorem Walked.file_mem_iff (walked : tree.Walked directory entries) (closed : tree.Closed)
    {name : String} {size : Nat} :
    (name, .file size) ∈ entries ↔
      ¬ tree.HasDirectory (.name name :: directory.trail) ∧
        ∃ content, tree.HasFile (.name name :: directory.trail) content ∧
          size = content.utf8ByteSize := by
  rw [walked.mem_iff]
  constructor
  · intro given
    obtain ⟨path, member, steps, ⟨_, _, _, absurdly⟩ | ⟨_, noDirectory, measured, same⟩⟩ := given
    · cases absurdly
    · cases same
      rw [size_eq_ok_iff closed, steps] at measured
      rw [← steps, ← isDirectory_iff, noDirectory]
      exact ⟨Bool.false_ne_true, steps ▸ measured⟩
  · intro given
    obtain ⟨noDirectory, content, there, same⟩ := given
    obtain ⟨stored, inFiles, steps⟩ := there
    have known : stored ∈ tree.paths := List.mem_append_left _ (List.mem_append_left _
      (List.mem_map.mpr ⟨_, inFiles, rfl⟩))
    -- The listing may have the path by another text with the same steps.
    obtain ⟨path, member, trail⟩ := exists_entry known steps nofun
    have steps := trail.trans steps
    refine ⟨path, member, steps, Or.inr ⟨size, ?_, ?_, rfl⟩⟩
    · rw [← Bool.not_eq_true, isDirectory_iff, steps]
      exact noDirectory
    · rw [size_eq_ok_iff closed, steps]
      exact ⟨content, ⟨stored, inFiles, trail ▸ steps⟩, same⟩

theorem Walked.directory_mem_iff (walked : tree.Walked directory entries) {name : String}
    {nested : List (String × Entry)} :
    (name, .directory nested) ∈ entries ↔
      ¬ tree.HasLink (.name name :: directory.trail) ∧
        ∃ path ∈ tree.entries directory, path.trail = .name name :: directory.trail ∧
          tree.Walked path nested := by
  rw [walked.mem_iff]
  constructor
  · intro given
    obtain ⟨path, member, steps, ⟨_, noLink, below, same⟩ | ⟨_, _, _, absurdly⟩⟩ := given
    · cases same
      rw [← steps, ← isLink_iff, noLink]
      exact ⟨Bool.false_ne_true, path, member, rfl, below⟩
    · cases absurdly
  · intro given
    obtain ⟨noLink, path, member, steps, below⟩ := given
    refine ⟨path, member, steps, Or.inl ⟨nested, ?_, below, rfl⟩⟩
    rw [← Bool.not_eq_true, isLink_iff, steps]
    exact noLink

theorem Walked.exists_directory (walked : tree.Walked directory entries) {name : String}
    (given : tree.HasDirectory (.name name :: directory.trail))
    (noLink : ¬ tree.HasLink (.name name :: directory.trail)) :
    ∃ path nested, path.trail = .name name :: directory.trail ∧ tree.Walked path nested ∧
      (name, .directory nested) ∈ entries := by
  obtain ⟨stored, inDirectories, steps⟩ := given
  obtain ⟨path, member, trail⟩ := exists_entry (List.mem_append_right _ inDirectories) steps nofun
  have steps := trail.trans steps
  obtain ⟨nested, below⟩ : ∃ nested, tree.Walked path nested :=
    exists_walked (isDirectory_iff.mpr ⟨stored, inDirectories, trail.symm⟩)
  exact ⟨path, nested, steps, below, walked.directory_mem_iff.mpr ⟨noLink, path, member, steps, below⟩⟩

end Campaign.MemoryTree
