import Campaign.Proofs.ListingOrder
import Campaign.Proofs.MirroredTrees

namespace Campaign

def FileSystem.Enters (files : FileSystem) (path : Path) : Prop :=
  path.fileName?.isSome = true ∧ files.isDirectory path = true ∧ files.isLink path = false

instance (files : FileSystem) (path : Path) : Decidable (files.Enters path) :=
  inferInstanceAs (Decidable (_ ∧ _ ∧ _))

namespace Snapshot

/-- The walk through a directory, call by call and as deep as it goes: `Walks files directory outcome`
says that it ends with the outcome. What `inside` says of paths that are not entered is not asked. -/
inductive Walks (files : FileSystem) : Path → Except Fault Snapshot → Prop where
  | refused {directory : Path} {fault : Fault} (listing : files.list directory = .error fault) :
    Walks files directory (.error fault)
  | listed {directory : Path} {paths : List Path} (inside : Path → Except Fault Snapshot)
    (listing : files.list directory = .ok paths)
    (entered : ∀ path ∈ paths, files.Enters path → Walks files path (inside path)) :
    Walks files directory (.ok (.ofVisits (paths.map (visit files inside))))

variable {files : FileSystem} {directory path : Path}

theorem visit_of_entered {left right : Path → Except Fault Snapshot}
    (agree : files.Enters path → left path = right path) :
    visit files left path = visit files right path := by
  cases named : path.fileName? with
  | none => rw [visit, visit, named]
  | some name => exact visit_congr fun directory noLink => agree ⟨by rw [named]; rfl, directory, noLink⟩

theorem walks_within (files : FileSystem) (directory : Path) :
    Walks files directory (within files (files.room directory) directory) := by
  rw [within_eq files (Nat.le_refl _)]
  cases listing : files.list directory with
  | error fault => exact .refused listing
  | ok paths =>
    refine .listed _ listing fun path member entered => ?_
    have deeper := files.room_lt listing member entered.2.1 entered.2.2
    exact walks_within files path
termination_by files.room directory

theorem Walks.eq_within {outcome : Except Fault Snapshot} (walks : Walks files directory outcome) :
    outcome = within files (files.room directory) directory := by
  induction walks with
  | refused listing =>
    rw [within_eq files (Nat.le_refl _), listing]
    rfl
  | listed inside listing entered ih =>
    rw [within_eq files (Nat.le_refl _), listing]
    refine congrArg (Except.ok ∘ ofVisits) (List.map_congr_left fun path member => ?_)
    exact visit_of_entered (ih path member)

theorem walks_iff {outcome : Except Fault Snapshot} :
    Walks files directory outcome ↔ outcome = within files (files.room directory) directory :=
  ⟨Walks.eq_within, fun same => same ▸ walks_within files directory⟩

theorem take_eq_mapError (files : FileSystem) (root : Path) :
    take files root = (within files (files.room root) root).mapError fun fault =>
      { path := root, fault := fault } := by
  rw [take]
  cases within files (files.room root) root <;> rfl

def SameListed (left right : Snapshot) : Prop := left.listed.Perm right.listed

section

variable {left right : FileSystem}

theorem listed_visit_relists (relists : left.Relists right)
    {inside others : Path → Except Fault Snapshot}
    (below : left.isDirectory path = true → left.isLink path = false →
      Alike SameListed (inside path) (others path)) :
    (visit left inside path).listed.Perm (visit right others path).listed := by
  unfold visit
  rw [← relists.isDirectory, ← relists.isLink, ← relists.size]
  split
  · exact .refl _
  · split
    · rename_i directory
      split
      · exact .refl _
      · rename_i noLink
        have alike := below directory (by simpa using noLink)
        generalize inside path = walked at alike ⊢
        generalize others path = rewalked at alike ⊢
        cases alike with
        | error fault => exact .refl _
        | ok same => exact same.cons path
    · exact .refl _

/-- The order of the entries has a part in the order in which directories are listed only. -/
theorem listed_within_relists (relists : left.Relists right) (directory : Path) :
    Alike SameListed (within left (left.room directory) directory)
      (within right (right.room directory) directory) := by
  rw [within_eq left (Nat.le_refl _), within_eq right (Nat.le_refl _)]
  have deeper := @left.room_lt directory
  have alike := relists.list directory
  generalize left.list directory = listing at alike deeper ⊢
  generalize right.list directory = relisting at alike ⊢
  cases alike with
  | error fault => exact .error fault
  | ok order =>
    refine .ok ?_
    simp only [SameListed, ofVisits, List.flatMap_map]
    refine order.flatMap fun path member => listed_visit_relists relists fun isDirectory noLink => ?_
    have := deeper rfl member isDirectory noLink
    exact listed_within_relists relists path
termination_by left.room directory

end

end Snapshot

theorem Path.exists_prefix_of_between {path outer : Path} {names : List String}
    (plain : ∀ name ∈ names, IsPlain name) (below : path.trail <:+ outer.trail)
    (above : outer.trail <:+ (path.descend names).trail) :
    ∃ front, front <+: names ∧ outer.trail = (path.descend front).trail := by
  obtain ⟨inner, between⟩ := below
  obtain ⟨later, whole⟩ := above
  rw [trail_descend path plain, ← between, ← List.append_assoc, List.append_cancel_right_eq] at whole
  have part : inner.reverse <+: names.map Component.name := by
    rw [← List.reverse_suffix, List.reverse_reverse]
    exact ⟨later, whole⟩
  obtain ⟨front, first, same⟩ := List.prefix_map_iff.mp part
  refine ⟨front, first, ?_⟩
  rw [trail_descend path fun name member => plain name (first.subset member), ← between, ← same,
    List.reverse_reverse]

namespace MemoryTree

variable {tree : MemoryTree} {root path : Path}

theorem listed_visitOf :
    (tree.visitOf path).listed =
      if tree.fileSystem.Enters path then path :: (tree.snapshotOf path).listed else [] := by
  have directories : tree.fileSystem.isDirectory path = tree.isDirectory path := rfl
  have links : tree.fileSystem.isLink path = tree.isLink path := rfl
  simp only [FileSystem.Enters, directories, links]
  rw [visitOf, Snapshot.visit, directories, links]
  cases named : path.fileName? with
  | none => simp [Snapshot.Visit.nothing]
  | some name =>
    cases directory : tree.isDirectory path with
    | true =>
      simp only [within_fileSystem, directory]
      cases tree.isLink path <;> simp [Snapshot.Visit.nothing]
    | false => cases tree.fileSystem.size path <;> simp [Snapshot.Visit.nothing]

theorem listed_snapshotOf (tree : MemoryTree) (root : Path) :
    (tree.snapshotOf root).listed =
      (tree.entries root).flatMap fun path => (tree.visitOf path).listed := by
  have visits : (tree.snapshotOf root).listed =
      ((tree.entries root).map tree.visitOf).flatMap (·.listed) := rfl
  rw [visits, List.flatMap_map]

theorem enters_iff_of_mem_entries (member : path ∈ tree.entries root) :
    tree.fileSystem.Enters path ↔
      (∃ name, path.trail = .name name :: root.trail) ∧ tree.isDirectory path = true ∧
        tree.isLink path = false := by
  rw [FileSystem.Enters, Option.isSome_iff_exists]
  simp only [fileName?_of_mem_entries member]
  rfl

theorem mem_listed_iff :
    path ∈ (tree.snapshotOf root).listed ↔
      ∃ child ∈ tree.entries root, tree.fileSystem.Enters child ∧
        (path = child ∨ path ∈ (tree.snapshotOf child).listed) := by
  rw [listed_snapshotOf, List.mem_flatMap]
  refine exists_congr fun child => and_congr_right fun _ => ?_
  rw [listed_visitOf]
  split <;> simp [*]

theorem opens_of_mem_listed (tree : MemoryTree) {root : Path} (given : tree.isDirectory root = true)
    {path : Path} (member : path ∈ (tree.snapshotOf root).listed) :
    ∃ names, names ≠ [] ∧ (∀ name ∈ names, IsPlain name) ∧
      path.trail = (root.descend names).trail ∧ tree.Opens root names := by
  obtain ⟨child, stored, entered, inside⟩ := mem_listed_iff.mp member
  obtain ⟨⟨name, step⟩, directory, noLink⟩ := (enters_iff_of_mem_entries stored).mp entered
  have first : IsPlain name :=
    Path.plain_of_mem_trail (step ▸ List.mem_cons_self : Component.name name ∈ child.trail)
  obtain ⟨rest, others, trail, opens⟩ : ∃ rest, (∀ name ∈ rest, IsPlain name) ∧
      path.trail = (child.descend rest).trail ∧ tree.Opens child rest := by
    obtain rfl | deeper := inside
    · exact ⟨[], nofun, rfl, opens_nil⟩
    · have smaller : tree.fileSystem.room child < tree.fileSystem.room root :=
        tree.fileSystem.room_lt (list_fileSystem given) stored directory noLink
      obtain ⟨rest, _, below⟩ := opens_of_mem_listed tree directory deeper
      exact ⟨rest, below⟩
  have plain : ∀ other ∈ name :: rest, IsPlain other := List.forall_mem_cons.mpr ⟨first, others⟩
  exact ⟨name :: rest, nofun, plain, trail.trans (Path.trail_descend_cons plain step).symm,
    (opens_cons_iff plain step).mpr ⟨directory, noLink, opens⟩⟩
termination_by tree.fileSystem.room root

theorem exists_listed_of_opens {names : List String} (some : names ≠ [])
    (plain : ∀ name ∈ names, IsPlain name) (opens : tree.Opens root names) :
    ∃ path ∈ (tree.snapshotOf root).listed, path.trail = (root.descend names).trail := by
  induction names generalizing root with
  | nil => exact absurd rfl some
  | cons name rest ih =>
    have first := plain name List.mem_cons_self
    have onward := (opens_cons_iff plain (Path.trail_join root first)).mp opens
    obtain ⟨stored, inDirectories, same⟩ := isDirectory_iff.mp onward.1
    have step := same.trans (Path.trail_join root first)
    obtain ⟨child, inEntries, trail⟩ :=
      exists_entry (List.mem_append_right _ inDirectories) step nofun
    have step := trail.trans step
    obtain ⟨directory, noLink, inside⟩ := (opens_cons_iff plain step).mp opens
    have entered := (enters_iff_of_mem_entries inEntries).mpr ⟨⟨name, step⟩, directory, noLink⟩
    rw [Path.trail_descend_cons plain step]
    cases rest with
    | nil => exact ⟨child, mem_listed_iff.mpr ⟨child, inEntries, entered, .inl rfl⟩, rfl⟩
    | cons second more =>
      obtain ⟨path, deeper, ends⟩ := ih nofun (fun other member => plain other
        (List.mem_cons_of_mem _ member)) inside
      exact ⟨path, mem_listed_iff.mpr ⟨child, inEntries, entered, .inr deeper⟩, ends⟩

theorem trail_suffix_of_mem_listed (given : tree.isDirectory root = true)
    (member : path ∈ (tree.snapshotOf root).listed) :
    root.trail <:+ path.trail ∧ path.trail ≠ root.trail := by
  obtain ⟨names, some, plain, trail, _⟩ := tree.opens_of_mem_listed given member
  rw [trail]
  refine ⟨?_, Path.trail_descend_ne plain some⟩
  rw [Path.trail_descend root plain]
  exact List.suffix_append _ _

theorem trail_suffix_of_mem_visitOf {child : Path} (member : path ∈ (tree.visitOf child).listed) :
    child.trail <:+ path.trail := by
  rw [listed_visitOf] at member
  split at member
  · rename_i entered
    obtain ⟨_, directory, _⟩ := entered
    obtain rfl | deeper := List.mem_cons.mp member
    · exact List.suffix_rfl
    · exact (trail_suffix_of_mem_listed directory deeper).1
  · exact absurd member List.not_mem_nil

/-- Two entries of a directory have nothing in common below them. -/
theorem disjoint_visitOf {child other : Path} (stored : child ∈ tree.entries root)
    (inEntries : other ∈ tree.entries root) (apart : child ≠ other) :
    ((tree.visitOf child).listed.map Path.trail).Disjoint
      ((tree.visitOf other).listed.map Path.trail) := by
  intro trail inFirst inSecond
  obtain ⟨path, listed, rfl⟩ := List.mem_map.mp inFirst
  obtain ⟨same, also, trails⟩ := List.mem_map.mp inSecond
  obtain ⟨_, _, step⟩ := isEntryOf_iff.mp (isEntryOf_of_mem_entries stored).2
  obtain ⟨_, _, otherStep⟩ := isEntryOf_iff.mp (isEntryOf_of_mem_entries inEntries).2
  have alike : child.trail.length = other.trail.length := by rw [step, otherStep]; rfl
  have first := trail_suffix_of_mem_visitOf listed
  have second := trail_suffix_of_mem_visitOf also
  rw [trails] at second
  have shared := List.suffix_of_suffix_length_le first second (Nat.le_of_eq alike)
  exact apart (entries_unique stored inEntries (shared.eq_of_length alike))

theorem nodup_listed (tree : MemoryTree) {root : Path} (given : tree.isDirectory root = true) :
    ((root :: (tree.snapshotOf root).listed).map Path.trail).Nodup := by
  rw [List.map_cons, List.nodup_cons]
  refine ⟨fun member => ?_, ?_⟩
  · obtain ⟨path, listed, same⟩ := List.mem_map.mp member
    exact (trail_suffix_of_mem_listed given listed).2 same
  rw [listed_snapshotOf, List.map_flatMap, List.nodup_flatMap]
  constructor
  · intro child stored
    rw [listed_visitOf]
    split
    · rename_i entered
      obtain ⟨_, directory, noLink⟩ := entered
      have smaller : tree.fileSystem.room child < tree.fileSystem.room root :=
        tree.fileSystem.room_lt (list_fileSystem given) stored directory noLink
      exact nodup_listed tree directory
    · exact List.nodup_nil
  · exact (tree.nodup_entries root).pairwise_of_forall_ne fun _ stored _ inEntries apart =>
      disjoint_visitOf stored inEntries apart
termination_by tree.fileSystem.room root

theorem noLink_of_mem_listed (given : tree.isDirectory root = true)
    (member : path ∈ (tree.snapshotOf root).listed) {outer : Path}
    (below : root.trail <:+ outer.trail) (apart : outer.trail ≠ root.trail)
    (above : outer.trail <:+ path.trail) : tree.isLink outer = false := by
  obtain ⟨names, _, plain, trail, opens⟩ := tree.opens_of_mem_listed given member
  obtain ⟨front, first, same⟩ := Path.exists_prefix_of_between plain below (trail ▸ above)
  have some : front ≠ [] := fun none => apart (by rw [same, none, Path.descend_nil])
  have noLink := (opens front first some).2
  rwa [isLink, leadsTo_congr _ same]

/-- The directories that a walk lists below its root: each place once, and exactly those that a way
down leads to on which there is no link. -/
structure Lists (tree : MemoryTree) (root : Path) (listed : List Path) : Prop where
  once : ((root :: listed).map Path.trail).Nodup
  opened : ∀ path ∈ listed, ∃ names, names ≠ [] ∧ (∀ name ∈ names, IsPlain name) ∧
    path.trail = (root.descend names).trail ∧ tree.Opens root names
  every : ∀ names, names ≠ [] → (∀ name ∈ names, IsPlain name) → tree.Opens root names →
    ∃ path ∈ listed, path.trail = (root.descend names).trail
  noLink : ∀ path ∈ listed, ∀ outer : Path, root.trail <:+ outer.trail →
    outer.trail ≠ root.trail → outer.trail <:+ path.trail → tree.isLink outer = false

theorem lists_snapshotOf (given : tree.isDirectory root = true) :
    tree.Lists root (tree.snapshotOf root).listed where
  once := tree.nodup_listed given
  opened _ member := tree.opens_of_mem_listed given member
  every _ some plain opens := exists_listed_of_opens some plain opens
  noLink _ member _ below apart above := noLink_of_mem_listed given member below apart above

theorem Lists.perm {listed relisted : List Path} (lists : tree.Lists root listed)
    (order : listed.Perm relisted) : tree.Lists root relisted where
  once := ((order.cons root).map Path.trail).nodup_iff.mp lists.once
  opened path member := lists.opened path (order.mem_iff.mpr member)
  every names some plain opens := by
    obtain ⟨path, member, trail⟩ := lists.every names some plain opens
    exact ⟨path, order.mem_iff.mp member, trail⟩
  noLink path member := lists.noLink path (order.mem_iff.mpr member)

/-- From every root of every tree the walk comes to an end, with no bound on its depth, and in one
way only, whatever the order of the entries. It lists its root and below it no place twice, and no
link nor what stands below one. -/
theorem walks_listsOnce (tree : MemoryTree) (files : FileSystem)
    (relists : tree.fileSystem.Relists files) (root : Path) :
    ∃ outcome, (∀ other, Snapshot.Walks files root other ↔ other = outcome) ∧
      Snapshot.take files root =
        outcome.mapError (fun fault => { path := root, fault := fault }) ∧
      (outcome = .error (.directoryMissing root) ↔ tree.isDirectory root = false) ∧
      ∀ snapshot, outcome = .ok snapshot → tree.Lists root snapshot.listed := by
  refine ⟨_, fun other => Snapshot.walks_iff, Snapshot.take_eq_mapError files root, ?_⟩
  have alike := Snapshot.listed_within_relists relists root
  rw [within_fileSystem] at alike
  generalize Snapshot.within files (files.room root) root = outcome at alike ⊢
  cases given : tree.isDirectory root with
  | false =>
    rw [given] at alike
    cases alike
    exact ⟨⟨fun _ => rfl, fun _ => rfl⟩, fun snapshot same => (by cases same)⟩
  | true =>
    rw [given] at alike
    cases alike with
    | ok order =>
      refine ⟨⟨fun same => (by cases same), fun same => (by cases same)⟩, fun snapshot same => ?_⟩
      rw [← Except.ok.inj same]
      exact (lists_snapshotOf given).perm order

def linked : MemoryTree :=
  after [.addDirectory (Path.ofText "/out/1/2"), .addDirectory (Path.ofText "/out/4"),
    .addLink (Path.ofText "/out/again"), .addDirectory (Path.ofText "/out/again/1"),
    .addDirectory (Path.ofText "/out/..")]

theorem walks_listsOnce_backwards :
    linked.fileSystem.Relists linked.fileSystem.backwards ∧
      ∃ snapshot, Snapshot.take linked.fileSystem.backwards (Path.ofText "/out") = .ok snapshot ∧
        linked.Lists (Path.ofText "/out") snapshot.listed ∧
        snapshot.listed =
          [Path.ofText "/out/4", Path.ofText "/out/1", Path.ofText "/out/1/2"] := by
  have relists := linked.fileSystem.relists_backwards
  have taken : (Snapshot.take linked.fileSystem.backwards (Path.ofText "/out")).map (·.listed) =
      .ok [Path.ofText "/out/4", Path.ofText "/out/1", Path.ofText "/out/1/2"] := by
    decide +kernel
  obtain ⟨outcome, _, took, _, lists⟩ :=
    walks_listsOnce linked linked.fileSystem.backwards relists (Path.ofText "/out")
  rw [took] at taken ⊢
  cases outcome with
  | error fault => cases taken
  | ok snapshot => exact ⟨relists, snapshot, rfl, lists snapshot rfl, Except.ok.inj taken⟩

end MemoryTree

end Campaign
