import Campaign.MemoryTree
import Campaign.Proofs.Paths
import Campaign.Proofs.Tables
import Mathlib.Data.List.Nodup

namespace Campaign

theorem leadsTo_iff {paths : List Path} {path : Path} :
    leadsTo paths path = true ↔ ∃ stored ∈ paths, stored.trail = path.trail := by
  unfold leadsTo
  rw [List.any_eq_true]
  simp only [Path.same_iff, eq_comm (a := path.trail)]

namespace MemoryTree

inductive Change where
  | addFile (path : Path) (content : String)
  | addDirectory (path : Path)
  | addVanished (path : Path)
  | addLink (path : Path)
  | removeFile (path : Path)

def apply (tree : MemoryTree) : Change → MemoryTree
  | .addFile path content => tree.addFile path content
  | .addDirectory path => tree.addDirectory path
  | .addVanished path => tree.addVanished path
  | .addLink path => tree.addLink path
  | .removeFile path => tree.removeFile path

def after (changes : List Change) : MemoryTree := changes.foldl apply empty

def HasDirectory (tree : MemoryTree) (trail : List Component) : Prop :=
  ∃ directory ∈ tree.directories, directory.trail = trail

def HasLink (tree : MemoryTree) (trail : List Component) : Prop :=
  ∃ link ∈ tree.links, link.trail = trail

def HasFile (tree : MemoryTree) (trail : List Component) (content : String) : Prop :=
  ∃ path, (path, content) ∈ tree.files ∧ path.trail = trail

theorem isDirectory_iff {tree : MemoryTree} {path : Path} :
    tree.isDirectory path = true ↔ tree.HasDirectory path.trail :=
  leadsTo_iff

theorem isLink_iff {tree : MemoryTree} {path : Path} :
    tree.isLink path = true ↔ tree.HasLink path.trail :=
  leadsTo_iff

theorem mem_addPath {paths : List Path} {added path : Path} (member : path ∈ addPath paths added) :
    path ∈ paths ∨ path = added := by
  unfold addPath at member
  split at member
  · exact Or.inl member
  · exact (List.mem_cons.mp member).symm

theorem mem_addPath_of_mem {paths : List Path} (added : Path) {path : Path}
    (member : path ∈ paths) : path ∈ addPath paths added := by
  unfold addPath
  split
  · exact member
  · exact List.mem_cons_of_mem _ member

theorem trail_mem_addPath (paths : List Path) (added : Path) :
    ∃ path ∈ addPath paths added, path.trail = added.trail := by
  unfold addPath
  split
  · rename_i taken
    exact leadsTo_iff.mp taken
  · exact ⟨added, List.mem_cons_self, rfl⟩

theorem mem_foldl_addPath {added paths : List Path} {path : Path}
    (member : path ∈ added.foldl addPath paths) : path ∈ paths ∨ path ∈ added := by
  induction added generalizing paths with
  | nil => exact Or.inl member
  | cons head rest ih =>
    rcases ih member with inPaths | inRest
    · rcases mem_addPath inPaths with old | rfl
      · exact Or.inl old
      · exact Or.inr List.mem_cons_self
    · exact Or.inr (List.mem_cons_of_mem _ inRest)

theorem mem_foldl_addPath_of_mem (added : List Path) {paths : List Path} {path : Path}
    (member : path ∈ paths) : path ∈ added.foldl addPath paths := by
  induction added generalizing paths with
  | nil => exact member
  | cons head rest ih => exact ih (mem_addPath_of_mem head member)

theorem trail_mem_foldl_addPath {added : List Path} (paths : List Path) {path : Path}
    (member : path ∈ added) : ∃ stored ∈ added.foldl addPath paths, stored.trail = path.trail := by
  induction added generalizing paths with
  | nil => exact absurd member List.not_mem_nil
  | cons head rest ih =>
    rcases List.mem_cons.mp member with rfl | inRest
    · obtain ⟨stored, here, same⟩ := trail_mem_addPath paths path
      exact ⟨stored, mem_foldl_addPath_of_mem rest here, same⟩
    · exact ih _ inRest

theorem ancestorsWithin_closed {limit : Nat} {path : Path} (deep : path.trail.length ≤ limit)
    {member : Path} (given : member ∈ path :: ancestorsWithin limit path) {last : Component}
    {outer : List Component} (steps : member.trail = last :: outer) (inside : outer ≠ []) :
    ∃ above ∈ ancestorsWithin limit path, above.trail = outer := by
  induction limit generalizing path with
  | zero =>
    have none : path.trail = [] := List.length_eq_zero_iff.mp (Nat.le_zero.mp deep)
    rcases List.mem_cons.mp given with rfl | absurdly
    · rw [none] at steps
      cases steps
    · exact absurd absurdly List.not_mem_nil
  | succ limit ih =>
    cases found : path.parent? with
    | none =>
      -- Without a parent the path is the root, which stands in nothing.
      rw [ancestorsWithin, found] at given
      obtain rfl := List.mem_singleton.mp given
      have notRoot : last ≠ .root := fun root => inside (Path.outer_of_root (root ▸ steps))
      obtain ⟨_, some, _⟩ := Path.parent?_eq_some steps notRoot
      rw [found] at some
      cases some
    | some parent =>
      obtain ⟨first, trail⟩ := Path.trail_of_parent? found
      have shallower : parent.trail.length ≤ limit := by
        rw [trail, List.length_cons] at deep
        omega
      rw [ancestorsWithin, found] at given ⊢
      rcases List.mem_cons.mp given with rfl | inside
      · have same : parent.trail = outer := (List.cons.inj (trail.symm.trans steps)).2
        exact ⟨parent, List.mem_cons_self, same⟩
      · obtain ⟨above, inParent, same⟩ := ih shallower inside
        exact ⟨above, List.mem_cons_of_mem _ inParent, same⟩

theorem ancestors_closed {path member : Path} (given : member ∈ path :: ancestors path)
    {last : Component} {outer : List Component} (steps : member.trail = last :: outer)
    (inside : outer ≠ []) : ∃ above ∈ ancestors path, above.trail = outer := by
  have inAll : member ∈ path :: ancestorsWithin path.depth path := by
    rcases List.mem_cons.mp given with rfl | kept
    · exact List.mem_cons_self
    · exact List.mem_cons_of_mem _ (List.mem_filter.mp kept).1
  obtain ⟨above, inAncestors, same⟩ :=
    ancestorsWithin_closed (Nat.le_of_eq path.depth_eq.symm) inAll steps inside
  exact ⟨above, List.mem_filter.mpr ⟨inAncestors, by simp [same, inside]⟩, same⟩

/-- The directory that a path stands in is in the tree. -/
def Houses (tree : MemoryTree) (path : Path) : Prop :=
  ∀ last outer, path.trail = last :: outer → outer ≠ [] → tree.HasDirectory outer

/-- What holds of a tree after any changes. -/
structure Closed (tree : MemoryTree) : Prop where
  houses : ∀ path ∈ tree.paths, tree.Houses path
  single : (tree.files.map fun file => file.1.trail).Nodup

theorem Houses.mono {tree more : MemoryTree} {path : Path} (housed : tree.Houses path)
    (wider : ∀ directory ∈ tree.directories, directory ∈ more.directories) : more.Houses path := by
  intro last outer steps inside
  obtain ⟨directory, member, same⟩ := housed last outer steps inside
  exact ⟨directory, wider directory member, same⟩

theorem houses_addAncestors {tree : MemoryTree} (houses : ∀ path ∈ tree.paths, tree.Houses path)
    {added path : Path} (member : path = added ∨ path ∈ (tree.addAncestors added).paths) :
    (tree.addAncestors added).Houses path := by
  have wider : ∀ directory ∈ tree.directories,
      directory ∈ (tree.addAncestors added).directories := fun _ inTree =>
    mem_foldl_addPath_of_mem _ inTree
  have own : path ∈ added :: ancestors added → (tree.addAncestors added).Houses path := by
    intro given last outer steps inside
    obtain ⟨above, inAncestors, same⟩ := ancestors_closed given steps inside
    obtain ⟨stored, inTree, sameStored⟩ := trail_mem_foldl_addPath tree.directories inAncestors
    exact ⟨stored, inTree, sameStored.trans same⟩
  rcases member with rfl | inPaths
  · exact own List.mem_cons_self
  · rcases List.mem_append.mp inPaths with entry | directory
    · exact (houses path (List.mem_append_left _ entry)).mono wider
    · rcases mem_foldl_addPath directory with old | above
      · exact (houses path (List.mem_append_right _ old)).mono wider
      · exact own (List.mem_cons_of_mem _ above)

theorem Closed.add {tree more : MemoryTree} (closed : tree.Closed) (added : Path)
    (wider : ∀ directory ∈ (tree.addAncestors added).directories, directory ∈ more.directories)
    (known : ∀ path ∈ more.paths, path = added ∨ path ∈ (tree.addAncestors added).paths)
    (single : (more.files.map fun file => file.1.trail).Nodup) :
    more.Closed where
  houses path member := (houses_addAncestors closed.houses (known path member)).mono wider
  single := single

theorem Closed.addFile {tree : MemoryTree} (closed : tree.Closed) (path : Path)
    (content : String) : (tree.addFile path content).Closed := by
  have replaced : ∀ file : Path × String,
      (if path.same file.1 then (file.1, content) else file).1 = file.1 := by
    intro file
    split <;> rfl
  simp only [MemoryTree.addFile]
  split
  · apply closed.add path
    · exact fun _ member => member
    · intro stored member
      right
      simpa only [paths, List.map_map, Function.comp_def, replaced] using member
    · simp only [List.map_map, Function.comp_def, replaced]
      exact closed.single
  · rename_i free
    apply closed.add path
    · exact fun _ member => member
    · intro stored member
      simpa [paths, or_assoc] using member
    · refine List.nodup_cons.mpr ⟨fun taken => free ?_, closed.single⟩
      obtain ⟨file, inFiles, same⟩ := List.mem_map.mp taken
      exact leadsTo_iff.mpr ⟨file.1, List.mem_map_of_mem inFiles, same⟩

theorem Closed.addDirectory {tree : MemoryTree} (closed : tree.Closed) (path : Path) :
    (tree.addDirectory path).Closed := by
  apply closed.add path
  · exact fun _ member => mem_addPath_of_mem path member
  · intro stored member
    rcases List.mem_append.mp member with entry | directory
    · exact Or.inr (List.mem_append_left _ entry)
    · rcases mem_addPath directory with old | same
      · exact Or.inr (List.mem_append_right _ old)
      · exact Or.inl same
  · exact closed.single

theorem Closed.addVanished {tree : MemoryTree} (closed : tree.Closed) (path : Path) :
    (tree.addVanished path).Closed := by
  apply closed.add path
  · exact fun _ member => member
  · intro stored member
    rcases List.mem_append.mp member with entry | directory
    · rcases List.mem_append.mp entry with file | vanished
      · exact Or.inr (List.mem_append_left _ (List.mem_append_left _ file))
      · rcases mem_addPath vanished with old | same
        · exact Or.inr (List.mem_append_left _ (List.mem_append_right _ old))
        · exact Or.inl same
    · exact Or.inr (List.mem_append_right _ directory)
  · exact closed.single

theorem Closed.removeFile {tree : MemoryTree} (closed : tree.Closed) (path : Path) :
    (tree.removeFile path).Closed where
  houses stored member := by
    have known : stored ∈ tree.paths := by
      rcases List.mem_append.mp member with entry | directory
      · rcases List.mem_append.mp entry with kept | vanished
        · obtain ⟨file, inFiles, rfl⟩ := List.mem_map.mp kept
          have file : file.1 ∈ tree.files.map (·.1) :=
            List.mem_map_of_mem (List.mem_filter.mp inFiles).1
          exact List.mem_append_left _ (List.mem_append_left _ file)
        · exact List.mem_append_left _ (List.mem_append_right _ vanished)
      · exact List.mem_append_right _ directory
    exact closed.houses stored known
  single := closed.single.sublist (List.filter_sublist.map _)

theorem Closed.apply {tree : MemoryTree} (closed : tree.Closed) (change : Change) :
    (tree.apply change).Closed := by
  cases change with
  | addFile path content => exact closed.addFile path content
  | addDirectory path => exact closed.addDirectory path
  | addVanished path => exact closed.addVanished path
  | addLink path => exact ⟨(closed.addDirectory path).houses, (closed.addDirectory path).single⟩
  | removeFile path => exact closed.removeFile path

theorem closed_after (changes : List Change) : (after changes).Closed := by
  have kept : ∀ tree : MemoryTree, tree.Closed → (changes.foldl MemoryTree.apply tree).Closed := by
    induction changes with
    | nil => exact fun _ closed => closed
    | cons head rest ih => exact fun tree closed => ih _ (closed.apply head)
  exact kept empty ⟨fun _ member => absurd member List.not_mem_nil, List.nodup_nil⟩

theorem Closed.hasDirectory_above {tree : MemoryTree} (closed : tree.Closed) {path : Path}
    (stored : path ∈ tree.paths) {outer : List Component} (above : outer <:+ path.trail)
    (given : outer ≠ []) (proper : outer ≠ path.trail) : tree.HasDirectory outer := by
  cases steps : path.trail with
  | nil =>
    rw [steps] at above
    exact absurd (List.suffix_nil.mp above) given
  | cons last inner =>
    rw [steps] at above proper
    have inside : outer <:+ inner := (List.suffix_cons_iff.mp above).resolve_left proper
    have housed : tree.HasDirectory inner :=
      closed.houses path stored last inner steps fun none =>
        given (List.suffix_nil.mp (none ▸ inside))
    by_cases same : outer = inner
    · exact same ▸ housed
    · obtain ⟨directory, member, trail⟩ := housed
      exact closed.hasDirectory_above (List.mem_append_right _ member) (trail ▸ inside) given
        (trail ▸ same)
termination_by path.trail.length
decreasing_by simp [trail, steps]

theorem HasDirectory.apply {tree : MemoryTree} {trail : List Component}
    (there : tree.HasDirectory trail) (change : Change) : (tree.apply change).HasDirectory trail := by
  obtain ⟨directory, member, same⟩ := there
  have housed : ∀ path, directory ∈ (tree.addAncestors path).directories := fun path =>
    mem_foldl_addPath_of_mem (ancestors path) member
  refine ⟨directory, ?_, same⟩
  cases change with
  | addFile path content =>
    show directory ∈ (tree.addFile path content).directories
    simp only [MemoryTree.addFile]
    split <;> exact housed path
  | addDirectory path => exact mem_addPath_of_mem path (housed path)
  | addVanished path => exact housed path
  | addLink path => exact mem_addPath_of_mem path (housed path)
  | removeFile path => exact member

theorem hasDirectory_of_mem_links_apply {tree : MemoryTree}
    (linked : ∀ link ∈ tree.links, tree.HasDirectory link.trail) (change : Change) :
    ∀ link ∈ (tree.apply change).links, (tree.apply change).HasDirectory link.trail := by
  have kept : ∀ link ∈ tree.links, (tree.apply change).HasDirectory link.trail := fun link member =>
    (linked link member).apply change
  cases change with
  | addFile path content =>
    have same : (tree.addFile path content).links = tree.links := by
      simp only [MemoryTree.addFile]
      split <;> rfl
    intro link member
    have member : link ∈ (tree.addFile path content).links := member
    rw [same] at member
    exact kept link member
  | addDirectory path => exact kept
  | addVanished path => exact kept
  | addLink path =>
    intro link member
    rcases mem_addPath member with old | rfl
    · exact kept link old
    · exact trail_mem_addPath _ link
  | removeFile path => exact kept

theorem hasDirectory_of_hasLink (changes : List Change) {trail : List Component} :
    (after changes).HasLink trail → (after changes).HasDirectory trail := by
  have kept : ∀ tree : MemoryTree, (∀ link ∈ tree.links, tree.HasDirectory link.trail) →
      ∀ link ∈ (changes.foldl MemoryTree.apply tree).links,
        (changes.foldl MemoryTree.apply tree).HasDirectory link.trail := by
    induction changes with
    | nil => exact fun _ given => given
    | cons head rest ih => exact fun tree given => ih _ (hasDirectory_of_mem_links_apply given head)
  intro linked
  obtain ⟨link, member, rfl⟩ := linked
  exact kept empty (fun _ absurdly => absurd absurdly List.not_mem_nil) link member

theorem contentAt?_eq_some_iff {tree : MemoryTree} (closed : tree.Closed) {path : Path}
    {content : String} :
    tree.contentAt? path = some content ↔ tree.HasFile path.trail content := by
  unfold contentAt?
  rw [Option.map_eq_some_iff]
  constructor
  · intro found
    obtain ⟨file, first, rfl⟩ := found
    have here : path.same file.1 = true := by simpa using List.find?_some first
    exact ⟨file.1, List.mem_of_find?_eq_some first, (Path.same_iff.mp here).symm⟩
  · intro held
    obtain ⟨stored, member, same⟩ := held
    cases first : tree.files.find? fun file => path.same file.1 with
    | none =>
      have miss := List.find?_eq_none.mp first _ member
      exact absurd (Path.same_iff.mpr same.symm) miss
    | some file =>
      have inFiles := List.mem_of_find?_eq_some first
      have here : path.same file.1 = true := by simpa using List.find?_some first
      have trails : file.1.trail = stored.trail := (Path.same_iff.mp here).symm.trans same.symm
      have one := List.inj_on_of_nodup_map closed.single inFiles member trails
      exact ⟨file, rfl, by rw [one]⟩

theorem Closed.content_unique {tree : MemoryTree} (closed : tree.Closed) {trail : List Component}
    {left right : String} (first : tree.HasFile trail left) (second : tree.HasFile trail right) :
    left = right := by
  obtain ⟨path, member, rfl⟩ := first
  obtain ⟨other, inFiles, same⟩ := second
  have one := List.inj_on_of_nodup_map closed.single inFiles member same
  exact (congrArg Prod.snd one).symm

section

variable {tree : MemoryTree} {directory path : Path}

theorem isEntryOf_iff :
    path.isEntryOf directory = true ↔
      ∃ last, last ≠ .root ∧ path.trail = last :: directory.trail := by
  unfold Path.isEntryOf
  split
  · rename_i steps
    simp [steps]
  · rename_i outer steps
    simp [steps, eq_comm]
  · rename_i last outer notRoot steps
    rw [Bool.and_eq_true, beq_iff_eq, beq_iff_eq]
    constructor
    · intro given
      exact ⟨last, notRoot, by rw [steps, given.2]⟩
    · intro given
      obtain ⟨_, _, same⟩ := given
      obtain ⟨rfl, rfl⟩ := List.cons.inj (steps.symm.trans same)
      exact ⟨by rw [path.depth_eq, directory.depth_eq, same, List.length_cons], rfl⟩

theorem get?_addEntry (entries : Table Component Path) {last : Component}
    {outer : List Component} (steps : path.trail = last :: outer) (key : Component) :
    (addEntry entries path).get? key =
      if key = last then some ((entries.get? last).getD path) else entries.get? key := by
  rw [addEntry, steps]
  exact Table.get?_alter _ _ _ _

theorem foldl_addEntry (added : List Path) {entries : Table Component Path}
    (keyed : ∀ key path, entries.get? key = some path → path.trail.head? = some key) :
    (∀ key path, (added.foldl addEntry entries).get? key = some path →
      path.trail.head? = some key) ∧
    ∀ key, ((entries.get? key).isSome ∨ ∃ path ∈ added, path.trail.head? = some key) →
      ((added.foldl addEntry entries).get? key).isSome := by
  induction added generalizing entries with
  | nil =>
    refine ⟨keyed, fun key given => ?_⟩
    rcases given with old | ⟨_, absurdly, _⟩
    · exact old
    · exact absurd absurdly List.not_mem_nil
  | cons head rest ih =>
    cases steps : head.trail with
    | nil =>
      have skipped : addEntry entries head = entries := by rw [addEntry, steps]
      obtain ⟨still, all⟩ := ih keyed
      rw [List.foldl_cons, skipped]
      refine ⟨still, fun key given => all key ?_⟩
      rcases given with old | ⟨path, member, first⟩
      · exact Or.inl old
      · rcases List.mem_cons.mp member with rfl | inRest
        · simp [steps] at first
        · exact Or.inr ⟨path, inRest, first⟩
    | cons last outer =>
      have step := get?_addEntry entries steps
      have keyedNext : ∀ key path, (addEntry entries head).get? key = some path →
          path.trail.head? = some key := by
        intro key path found
        rw [step] at found
        split at found
        · rename_i same
          subst same
          cases present : entries.get? key with
          | none =>
            rw [present] at found
            obtain rfl : head = path := Option.some.inj found
            rw [steps, List.head?_cons]
          | some kept =>
            rw [present] at found
            cases found
            exact keyed key _ present
        · exact keyed key path found
      obtain ⟨still, all⟩ := ih keyedNext
      refine ⟨still, fun key given => all key ?_⟩
      rw [step]
      by_cases same : key = last
      · left
        rw [if_pos same]
        rfl
      · rw [if_neg same]
        rcases given with old | ⟨path, member, first⟩
        · exact Or.inl old
        · rcases List.mem_cons.mp member with rfl | inRest
          · rw [steps, List.head?_cons] at first
            exact absurd (Option.some.inj first).symm same
          · exact Or.inr ⟨path, inRest, first⟩

theorem get?_entries_step {key : Component}
    (found : ((tree.paths.filter (·.isEntryOf directory)).foldl addEntry .empty).get? key =
      some path) : path.trail.head? = some key :=
  (foldl_addEntry _ fun _ _ absurdly => by cases absurdly).1 key path found

theorem entries_unique {other : Path} (member : path ∈ tree.entries directory)
    (inEntries : other ∈ tree.entries directory) (same : path.trail = other.trail) :
    path = other := by
  obtain ⟨key, found⟩ := Table.mem_values_iff.mp member
  obtain ⟨otherKey, otherFound⟩ := Table.mem_values_iff.mp inEntries
  have first := get?_entries_step found
  have second := get?_entries_step otherFound
  rw [same, second] at first
  obtain rfl := Option.some.inj first
  exact Option.some.inj (found.symm.trans otherFound)

theorem nodup_entries (tree : MemoryTree) (directory : Path) : (tree.entries directory).Nodup := by
  let table := (tree.paths.filter (·.isEntryOf directory)).foldl addEntry .empty
  refine List.pairwise_map.mpr (table.ascending.imp_of_mem fun {left right} inLeft inRight less same => ?_)
  have first := get?_entries_step (Table.get?_eq_some_iff.mpr inLeft)
  have second := get?_entries_step (Table.get?_eq_some_iff.mpr inRight)
  rw [same, second] at first
  exact KeyOrder.ne_of_lt less (Option.some.inj first).symm

theorem exists_entry {last : Component} (stored : path ∈ tree.paths)
    (steps : path.trail = last :: directory.trail) (notRoot : last ≠ .root) :
    ∃ entry ∈ tree.entries directory, entry.trail = path.trail := by
  have below : path.isEntryOf directory = true := isEntryOf_iff.mpr ⟨last, notRoot, steps⟩
  have nothing : ∀ key path, (Table.empty : Table Component Path).get? key = some path →
      path.trail.head? = some key := fun _ _ absurdly => by cases absurdly
  have listed := (foldl_addEntry (tree.paths.filter (·.isEntryOf directory)) nothing).2 last
    (Or.inr ⟨path, List.mem_filter.mpr ⟨stored, below⟩, by rw [steps, List.head?_cons]⟩)
  obtain ⟨entry, found⟩ := Option.isSome_iff_exists.mp listed
  have member : entry ∈ tree.entries directory := Table.mem_values_iff.mpr ⟨last, found⟩
  have first := get?_entries_step found
  obtain ⟨other, _, trail⟩ := isEntryOf_iff.mp (isEntryOf_of_mem_entries member).2
  rw [trail, List.head?_cons] at first
  obtain rfl := Option.some.inj first
  exact ⟨entry, member, trail.trans steps.symm⟩

theorem list_fileSystem (given : tree.isDirectory directory = true) :
    tree.fileSystem.list directory = .ok (tree.entries directory) := by
  show tree.list directory = _
  rw [list, if_pos given]

end

end MemoryTree

end Campaign
