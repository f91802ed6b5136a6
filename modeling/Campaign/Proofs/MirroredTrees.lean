import Campaign.Proofs.Accounting
import Campaign.Proofs.Walks

namespace Campaign

def Path.descend (path : Path) (names : List String) : Path := names.foldl Path.join path

namespace Path

theorem same_congr {path other : Path} (trails : path.trail = other.trail) :
    path.same = other.same := by
  funext third
  rw [Bool.eq_iff_iff, same_iff, same_iff, trails]

theorem isEntryOf_congr {directory other : Path} (trails : directory.trail = other.trail)
    (path : Path) : path.isEntryOf directory = path.isEntryOf other := by
  unfold isEntryOf
  rw [directory.depth_eq, other.depth_eq, trails]

@[simp] theorem descend_nil (path : Path) : path.descend [] = path := rfl

theorem trail_descend (path : Path) {names : List String} (plain : ∀ name ∈ names, IsPlain name) :
    (path.descend names).trail = (names.map Component.name).reverse ++ path.trail :=
  Place.trail_foldl_join path plain

theorem trail_descend_cons {path inner : Path} {name : String} {rest : List String}
    (plain : ∀ other ∈ name :: rest, IsPlain other)
    (step : inner.trail = .name name :: path.trail) :
    (path.descend (name :: rest)).trail = (inner.descend rest).trail := by
  rw [trail_descend path plain, trail_descend inner fun other member =>
    plain other (List.mem_cons_of_mem _ member), step]
  simp

theorem trail_descend_ne {path : Path} {names : List String}
    (plain : ∀ name ∈ names, IsPlain name) (some : names ≠ []) :
    (path.descend names).trail ≠ path.trail := by
  rw [trail_descend path plain, ne_eq, List.append_left_eq_self]
  simpa using some

end Path

def Anomaly.isAt (path : Path) (anomaly : Anomaly) : Bool := anomaly.path?.any path.same

theorem Anomaly.isAt_congr {path other : Path} (trails : path.trail = other.trail) :
    Anomaly.isAt path = Anomaly.isAt other := by
  funext anomaly
  rw [isAt, isAt, Path.same_congr trails]

theorem Anomaly.trail_unique {anomaly : Anomaly} {path other : Path}
    (here : anomaly.isAt path = true) (there : anomaly.isAt other = true) :
    path.trail = other.trail := by
  unfold isAt at here there
  cases about : anomaly.path? with
  | none =>
    rw [about] at here
    cases here
  | some own =>
    rw [about, Option.any_some, Path.same_iff] at here there
    exact here.trans there.symm

namespace MemoryTree

variable {tree : MemoryTree} {root path other : Path} {name : String} {names rest : List String}

theorem leadsTo_congr (paths : List Path) (trails : path.trail = other.trail) :
    leadsTo paths path = leadsTo paths other := by
  rw [leadsTo, leadsTo, Path.same_congr trails]

theorem snapshotOf_congr (tree : MemoryTree) (trails : path.trail = other.trail) :
    tree.snapshotOf path = tree.snapshotOf other := by
  have listed : tree.entries path = tree.entries other := by
    unfold entries
    simp only [Path.isEntryOf_congr trails]
  rw [snapshotOf, snapshotOf, listed]

/-- The way down from a root stays among directories that are no links, its end included. -/
def Opens (tree : MemoryTree) (root : Path) (names : List String) : Prop :=
  ∀ front, front <+: names → front ≠ [] →
    tree.isDirectory (root.descend front) = true ∧ tree.isLink (root.descend front) = false

theorem opens_nil : tree.Opens root [] := fun _ first given =>
  absurd (List.prefix_nil.mp first) given

theorem opens_cons_iff (plain : ∀ other ∈ name :: rest, IsPlain other)
    (step : path.trail = .name name :: root.trail) :
    tree.Opens root (name :: rest) ↔
      tree.isDirectory path = true ∧ tree.isLink path = false ∧ tree.Opens path rest := by
  have below : ∀ front, front <+: rest →
      tree.isDirectory (root.descend (name :: front)) = tree.isDirectory (path.descend front) ∧
        tree.isLink (root.descend (name :: front)) = tree.isLink (path.descend front) := by
    intro front first
    have trails := Path.trail_descend_cons (fun other member => plain other
      (List.cons_subset_cons name first.subset member)) step
    exact ⟨leadsTo_congr _ trails, leadsTo_congr _ trails⟩
  constructor
  · intro opens
    have here := opens [name] (by simp) nofun
    rw [(below [] List.nil_prefix).1, (below [] List.nil_prefix).2] at here
    refine ⟨here.1, here.2, fun front first _ => ?_⟩
    rw [← (below front first).1, ← (below front first).2]
    exact opens (name :: front) (List.cons_prefix_cons.mpr ⟨rfl, first⟩) nofun
  · intro given front first some
    obtain ⟨directory, noLink, inside⟩ := given
    obtain none | ⟨later, rfl, others⟩ := List.prefix_cons_iff.mp first
    · exact absurd none some
    · rw [(below later others).1, (below later others).2]
      cases later with
      | nil => exact ⟨directory, noLink⟩
      | cons second more => exact inside _ others nofun

theorem lookup_directory_iff (given : tree.isDirectory root = true) (plain : IsPlain name)
    {nested : List (String × Entry)} :
    (tree.snapshotOf root).entries.lookup name = some (.directory nested) ↔
      tree.isDirectory (root.join name) = true ∧ tree.isLink (root.join name) = false ∧
        nested = (tree.snapshotOf (root.join name)).entries := by
  have walked : tree.Walked root (tree.snapshotOf root).entries := walked_iff.mpr ⟨given, rfl⟩
  have ascending : Ascending (tree.snapshotOf root).entries :=
    (Snapshot.isListing_ofVisits _ _ _).ascending
  have step := Path.trail_join root plain
  rw [ascending.lookup_eq_some_iff, walked.directory_mem_iff, ← step, ← isLink_iff,
    Bool.not_eq_true]
  constructor
  · intro found
    obtain ⟨noLink, path, _, trail, below⟩ := found
    obtain ⟨directory, same⟩ := walked_iff.mp below
    exact ⟨(leadsTo_congr _ trail).symm.trans directory, noLink,
      by rw [same, snapshotOf_congr tree trail]⟩
  · intro found
    obtain ⟨directory, noLink, same⟩ := found
    obtain ⟨stored, inDirectories, stands⟩ := isDirectory_iff.mp directory
    obtain ⟨path, member, trail⟩ :=
      exists_entry (List.mem_append_right _ inDirectories) (stands.trans step) nofun
    have trail := trail.trans stands
    refine ⟨noLink, path, member, trail, walked_iff.mpr ⟨?_, ?_⟩⟩
    · exact (leadsTo_congr _ trail).trans directory
    · rw [same, snapshotOf_congr tree trail]

theorem lookup_file_iff (closed : tree.Closed) (given : tree.isDirectory root = true)
    (plain : IsPlain name) {size : Nat} :
    (tree.snapshotOf root).entries.lookup name = some (.file size) ↔
      tree.isDirectory (root.join name) = false ∧
        ∃ content, tree.contentAt? (root.join name) = some content ∧
          size = content.utf8ByteSize := by
  have walked : tree.Walked root (tree.snapshotOf root).entries := walked_iff.mpr ⟨given, rfl⟩
  have ascending : Ascending (tree.snapshotOf root).entries :=
    (Snapshot.isListing_ofVisits _ _ _).ascending
  rw [ascending.lookup_eq_some_iff, walked.file_mem_iff closed, ← Path.trail_join root plain,
    ← isDirectory_iff, Bool.not_eq_true]
  simp only [contentAt?_eq_some_iff closed]

theorem at?_eq_directory_iff (given : tree.isDirectory root = true)
    (plain : ∀ name ∈ names, IsPlain name) {nested : List (String × Entry)} :
    (Entry.directory (tree.snapshotOf root).entries).at? names = some (.directory nested) ↔
      tree.Opens root names ∧ nested = (tree.snapshotOf (root.descend names)).entries := by
  induction names generalizing root with
  | nil =>
    rw [Entry.at?_nil, Option.some_inj, Entry.directory.injEq, eq_comm]
    exact (and_iff_right opens_nil).symm
  | cons name rest ih =>
    have first := plain name List.mem_cons_self
    have others : ∀ other ∈ rest, IsPlain other := fun other member =>
      plain other (List.mem_cons_of_mem _ member)
    have step := Path.trail_join root first
    rw [Entry.at?_directory_cons, Option.bind_eq_some_iff, opens_cons_iff plain step,
      snapshotOf_congr tree (Path.trail_descend_cons plain step)]
    constructor
    · intro found
      obtain ⟨entry, here, inside⟩ := found
      cases entry with
      | file size => cases rest <;> cases inside
      | directory entries =>
        obtain ⟨directory, noLink, rfl⟩ := (lookup_directory_iff given first).mp here
        obtain ⟨opens, same⟩ := (ih directory others).mp inside
        exact ⟨⟨directory, noLink, opens⟩, same⟩
    · intro found
      obtain ⟨⟨directory, noLink, opens⟩, same⟩ := found
      exact ⟨_, (lookup_directory_iff given first).mpr ⟨directory, noLink, rfl⟩,
        (ih directory others).mpr ⟨opens, same⟩⟩

theorem Opens.isDirectory_descend (opens : tree.Opens root names)
    (given : tree.isDirectory root = true) : tree.isDirectory (root.descend names) = true := by
  by_cases none : names = []
  · rw [none]
    exact given
  · exact (opens names List.prefix_rfl none).1

theorem at?_eq_file_iff (closed : tree.Closed) (given : tree.isDirectory root = true)
    (plain : ∀ name ∈ names, IsPlain name) {size : Nat} :
    (Entry.directory (tree.snapshotOf root).entries).at? names = some (.file size) ↔
      tree.Opens root names.dropLast ∧ tree.isDirectory (root.descend names) = false ∧
        ∃ content, tree.contentAt? (root.descend names) = some content ∧
          size = content.utf8ByteSize := by
  rcases List.eq_nil_or_concat names with rfl | ⟨front, name, rfl⟩
  · simp [given]
  · rw [List.concat_eq_append] at plain ⊢
    have last : (root.descend (front ++ [name])) = (root.descend front).join name := by
      rw [Path.descend, List.foldl_append]
      rfl
    have first : ∀ other ∈ front, IsPlain other := fun other member =>
      plain other (List.mem_append_left _ member)
    have ends : IsPlain name := plain name (List.mem_append_right _ List.mem_cons_self)
    rw [Entry.at?_concat_eq_some_iff, List.dropLast_concat, last]
    constructor
    · intro found
      obtain ⟨entries, outer, inner⟩ := found
      obtain ⟨opens, rfl⟩ := (at?_eq_directory_iff given first).mp outer
      exact ⟨opens, (lookup_file_iff closed (opens.isDirectory_descend given) ends).mp inner⟩
    · intro found
      obtain ⟨opens, here⟩ := found
      exact ⟨_, (at?_eq_directory_iff given first).mpr ⟨opens, rfl⟩,
        (lookup_file_iff closed (opens.isDirectory_descend given) ends).mpr here⟩

def note? (tree : MemoryTree) (path : Path) : Option Anomaly :=
  if tree.isLink path then some (.unexpectedEntry path .linkedDirectory)
  else if leadsTo tree.vanished path && !tree.isDirectory path && !tree.hasFile path then
    some (.vanishedEntry path (.fileMissing path))
  else none

/-- What a walk notes at a place below its root: on a way that is open as far as its last directory
what is amiss with the path at its end, and at any other place nothing. -/
def Notes (tree : MemoryTree) (root : Path) (names : List String) (noted : List Anomaly) : Prop :=
  ∃ stored : Path, (root.descend names).same stored = true ∧
    (tree.Opens root names.dropLast → noted = (tree.note? stored).toList) ∧
    (¬ tree.Opens root names.dropLast → noted = [])

theorem notes_cons_iff (plain : ∀ other ∈ name :: rest, IsPlain other)
    (step : path.trail = .name name :: root.trail) (directory : tree.isDirectory path = true)
    (noLink : tree.isLink path = false) (some : rest ≠ []) {noted : List Anomaly} :
    tree.Notes root (name :: rest) noted ↔ tree.Notes path rest noted := by
  have shorter : ∀ other ∈ name :: rest.dropLast, IsPlain other := fun other member =>
    plain other (List.cons_subset_cons name (List.dropLast_subset rest) member)
  unfold Notes
  rw [List.dropLast_cons_of_ne_nil some, opens_cons_iff shorter step,
    Path.same_congr (Path.trail_descend_cons plain step)]
  simp only [directory, noLink, true_and]

theorem path?_of_note? {anomaly : Anomaly} (noted : tree.note? path = some anomaly) :
    anomaly.path? = some path := by
  unfold note? at noted
  split at noted
  · cases noted
    rfl
  · split at noted
    · cases noted
      rfl
    · cases noted

def visitOf (tree : MemoryTree) (path : Path) : Snapshot.Visit :=
  Snapshot.visit tree.fileSystem
    (fun path => Snapshot.within tree.fileSystem (tree.fileSystem.room path) path) path

theorem anomalies_snapshotOf (tree : MemoryTree) (root : Path) :
    (tree.snapshotOf root).anomalies =
      (tree.entries root).flatMap fun path => (tree.visitOf path).anomalies := by
  rw [snapshotOf, Snapshot.ofVisits, List.flatMap_map]
  rfl

theorem anomalies_visitOf_nameless (nameless : path.fileName? = none) :
    (tree.visitOf path).anomalies = [] := by
  rw [visitOf, Snapshot.visit, nameless]
  rfl

theorem filter_note? (trails : path.trail = other.trail) :
    (tree.note? path).toList.filter (Anomaly.isAt other) = (tree.note? path).toList := by
  refine List.filter_eq_self.mpr fun anomaly noted => ?_
  rw [Anomaly.isAt, path?_of_note? (Option.mem_toList.mp noted)]
  exact Path.same_iff.mpr trails.symm

theorem filter_note?_of_ne (apart : path.trail ≠ other.trail) :
    (tree.note? path).toList.filter (Anomaly.isAt other) = [] := by
  refine List.filter_eq_nil_iff.mpr fun anomaly noted here => apart ?_
  rw [Anomaly.isAt, path?_of_note? (Option.mem_toList.mp noted)] at here
  exact (Path.same_iff.mp here).symm

theorem leadsTo_vanished_of_listed (stored : path ∈ tree.paths)
    (noDirectory : tree.isDirectory path = false) (noFile : tree.contentAt? path = none) :
    leadsTo tree.vanished path = true := by
  rcases List.mem_append.mp stored with entry | directory
  · rcases List.mem_append.mp entry with file | vanished
    · obtain ⟨⟨_, content⟩, inFiles, rfl⟩ := List.mem_map.mp file
      have miss := List.find?_eq_none.mp (Option.map_eq_none_iff.mp noFile) _ inFiles
      exact absurd (Path.same_iff.mpr rfl) miss
    · exact leadsTo_iff.mpr ⟨path, vanished, rfl⟩
  · have there : tree.isDirectory path = true := leadsTo_iff.mpr ⟨path, directory, rfl⟩
    rw [there] at noDirectory
    cases noDirectory

section

variable (linked : ∀ trail, tree.HasLink trail → tree.HasDirectory trail)

include linked

theorem isLink_eq_false (noDirectory : tree.isDirectory path = false) :
    tree.isLink path = false := by
  rw [← Bool.not_eq_true, isLink_iff]
  intro link
  rw [isDirectory_iff.mpr (linked _ link)] at noDirectory
  cases noDirectory

theorem listed_of_note? {anomaly : Anomaly} (noted : tree.note? path = some anomaly)
    (step : path.trail = .name name :: root.trail) :
    ∃ entry ∈ tree.entries root, entry.trail = .name name :: root.trail := by
  have listed : ∀ stored ∈ tree.paths, stored.trail = path.trail →
      ∃ entry ∈ tree.entries root, entry.trail = .name name :: root.trail := by
    intro stored known same
    obtain ⟨entry, member, trail⟩ := exists_entry known (same.trans step) nofun
    exact ⟨entry, member, trail.trans (same.trans step)⟩
  unfold note? at noted
  split at noted
  · rename_i link
    obtain ⟨stored, member, same⟩ := linked _ (isLink_iff.mp link)
    exact listed stored (List.mem_append_right _ member) same
  · split at noted
    · rename_i gone
      rw [Bool.and_eq_true, Bool.and_eq_true] at gone
      obtain ⟨stored, member, same⟩ := leadsTo_iff.mp gone.1.1
      exact listed stored (List.mem_append_left _ (List.mem_append_right _ member)) same
    · cases noted

theorem anomalies_visitOf (stored : path ∈ tree.paths) (named : path.fileName? = some name) :
    (tree.visitOf path).anomalies =
      if tree.isDirectory path && !tree.isLink path then (tree.snapshotOf path).anomalies
      else (tree.note? path).toList := by
  have directories : tree.fileSystem.isDirectory path = tree.isDirectory path := rfl
  have links : tree.fileSystem.isLink path = tree.isLink path := rfl
  have sizes : tree.fileSystem.size path = (tree.readText path).map String.utf8ByteSize := rfl
  simp only [visitOf, Snapshot.visit, named, directories, links, sizes, within_fileSystem]
  cases directory : tree.isDirectory path with
  | true => cases link : tree.isLink path <;> simp [note?, link]
  | false =>
    have noLink := isLink_eq_false linked directory
    cases held : tree.contentAt? path with
    | some content =>
      simp [readText, held, Except.map, note?, hasFile, noLink, Snapshot.Visit.nothing]
    | none =>
      have gone := leadsTo_vanished_of_listed stored directory held
      simp [readText, held, Except.map, note?, hasFile, noLink, directory, gone]

theorem isBelow_of_mem_visit {anomaly : Anomaly} (stored : path ∈ tree.paths)
    (inside : tree.isDirectory path = true → tree.isLink path = false →
      anomaly ∈ (tree.snapshotOf path).anomalies →
      ∃ names, names ≠ [] ∧ (∀ name ∈ names, IsPlain name) ∧
        anomaly.isAt (path.descend names) = true)
    (noted : anomaly ∈ (tree.visitOf path).anomalies) :
    ∃ name names, path.fileName? = some name ∧ (∀ name ∈ names, IsPlain name) ∧
      anomaly.isAt (path.descend names) = true := by
  cases named : path.fileName? with
  | none =>
    rw [anomalies_visitOf_nameless named] at noted
    exact absurd noted List.not_mem_nil
  | some name =>
    rw [anomalies_visitOf linked stored named] at noted
    split at noted
    · rename_i opens
      obtain ⟨directory, noLink⟩ := Bool.and_eq_true_iff.mp opens
      obtain ⟨names, _, plain, here⟩ := inside directory (by simpa using noLink) noted
      exact ⟨name, names, rfl, plain, here⟩
    · have about : anomaly.path? = some path := path?_of_note? (Option.mem_toList.mp noted)
      refine ⟨name, [], rfl, nofun, ?_⟩
      rw [Anomaly.isAt, about]
      exact Path.same_iff.mpr rfl

theorem isBelow_of_mem_anomalies {root : Path} (given : tree.isDirectory root = true)
    {anomaly : Anomaly} (member : anomaly ∈ (tree.snapshotOf root).anomalies) :
    ∃ names, names ≠ [] ∧ (∀ name ∈ names, IsPlain name) ∧
      anomaly.isAt (root.descend names) = true := by
  rw [anomalies_snapshotOf] at member
  obtain ⟨path, inEntries, noted⟩ := List.mem_flatMap.mp member
  obtain ⟨name, rest, named, others, here⟩ := isBelow_of_mem_visit linked
    (isEntryOf_of_mem_entries inEntries).1 (fun directory noLink noted =>
      have deeper : tree.fileSystem.room path < tree.fileSystem.room root :=
        tree.fileSystem.room_lt (list_fileSystem given) inEntries directory noLink
      isBelow_of_mem_anomalies directory noted) noted
  have step := (fileName?_of_mem_entries inEntries).mp named
  have plain : ∀ other ∈ name :: rest, IsPlain other := by
    simpa using ⟨Path.plain_of_fileName? named, others⟩
  refine ⟨name :: rest, nofun, plain, ?_⟩
  rwa [Anomaly.isAt_congr (Path.trail_descend_cons plain step)]
termination_by tree.fileSystem.room root

/-- An entry that is not on the way to a place has no part in what is noted there. -/
theorem filter_visit_eq_nil (stored : path ∈ tree.entries root)
    (plain : ∀ other ∈ name :: rest, IsPlain other)
    (aside : path.trail ≠ .name name :: root.trail) :
    (tree.visitOf path).anomalies.filter (Anomaly.isAt (root.descend (name :: rest))) = [] := by
  refine List.filter_eq_nil_iff.mpr fun anomaly noted here => aside ?_
  obtain ⟨known, entry⟩ := isEntryOf_of_mem_entries stored
  obtain ⟨last, _, steps⟩ := isEntryOf_iff.mp entry
  obtain ⟨_, names, _, others, there⟩ := isBelow_of_mem_visit linked known
    (fun directory _ => isBelow_of_mem_anomalies linked directory) noted
  have trails := Anomaly.trail_unique there here
  rw [Path.trail_descend path others, Path.trail_descend root plain, steps] at trails
  have cut : (names.map Component.name).reverse ++ [last] =
      (rest.map Component.name).reverse ++ [.name name] :=
    (List.append_left_inj root.trail).mp (by simpa using trails)
  have lasts := congrArg List.getLast? cut
  rw [List.getLast?_concat, List.getLast?_concat] at lasts
  rw [steps, Option.some.inj lasts]

theorem filter_anomalies_self (given : tree.isDirectory path = true)
    (trails : other.trail = path.trail) :
    (tree.snapshotOf path).anomalies.filter (Anomaly.isAt other) = [] := by
  refine List.filter_eq_nil_iff.mpr fun anomaly noted here => ?_
  obtain ⟨names, some, plain, there⟩ := isBelow_of_mem_anomalies linked given noted
  exact Path.trail_descend_ne plain some ((Anomaly.trail_unique there here).trans trails)

theorem filter_anomalies_of_listed (member : path ∈ tree.entries root)
    (steps : path.trail = .name name :: root.trail)
    (plain : ∀ other ∈ name :: rest, IsPlain other) :
    (tree.snapshotOf root).anomalies.filter (Anomaly.isAt (root.descend (name :: rest))) =
      if tree.isDirectory path && !tree.isLink path then
        (tree.snapshotOf path).anomalies.filter (Anomaly.isAt (path.descend rest))
      else (tree.note? path).toList.filter (Anomaly.isAt (path.descend rest)) := by
  have single : (tree.entries root).flatMap (fun path =>
        (tree.visitOf path).anomalies.filter (Anomaly.isAt (root.descend (name :: rest)))) =
      (tree.visitOf path).anomalies.filter (Anomaly.isAt (root.descend (name :: rest))) := by
    refine flatMap_eq_of_single (nodup_entries tree root) member fun other inEntries apart => ?_
    refine filter_visit_eq_nil linked inEntries plain fun same => apart ?_
    exact entries_unique inEntries member (same.trans steps.symm)
  rw [anomalies_snapshotOf, List.filter_flatMap, single, anomalies_visitOf linked
      (isEntryOf_of_mem_entries member).1 ((fileName?_of_mem_entries member).mpr steps),
    Anomaly.isAt_congr (Path.trail_descend_cons plain steps)]
  split <;> rfl

theorem filter_anomalies_of_unlisted
    (unlisted : ∀ path ∈ tree.entries root, path.trail ≠ .name name :: root.trail)
    (plain : ∀ other ∈ name :: rest, IsPlain other) :
    (tree.snapshotOf root).anomalies.filter (Anomaly.isAt (root.descend (name :: rest))) = [] := by
  rw [anomalies_snapshotOf, List.filter_flatMap, List.flatMap_eq_nil_iff]
  exact fun path member => filter_visit_eq_nil linked member plain (unlisted path member)

theorem notes_filter_anomalies (given : tree.isDirectory root = true)
    (plain : ∀ name ∈ names, IsPlain name) (some : names ≠ []) :
    tree.Notes root names
      ((tree.snapshotOf root).anomalies.filter (Anomaly.isAt (root.descend names))) := by
  induction names generalizing root with
  | nil => exact absurd rfl some
  | cons name rest ih =>
    have step := Path.trail_join root (plain name List.mem_cons_self)
    have others : ∀ other ∈ rest, IsPlain other := fun other member =>
      plain other (List.mem_cons_of_mem _ member)
    have shorter : ∀ other ∈ name :: rest.dropLast, IsPlain other := fun other member =>
      plain other (List.cons_subset_cons name (List.dropLast_subset rest) member)
    by_cases listed : ∃ path ∈ tree.entries root, path.trail = .name name :: root.trail
    · obtain ⟨path, member, steps⟩ := listed
      have trails := Path.trail_descend_cons plain steps
      rw [filter_anomalies_of_listed linked member steps plain]
      cases rest with
      | nil =>
        refine ⟨path, Path.same_iff.mpr trails, fun _ => ?_, fun shut => absurd opens_nil shut⟩
        split
        · rename_i opens
          obtain ⟨directory, noLink⟩ := Bool.and_eq_true_iff.mp opens
          have noLink : tree.isLink path = false := by simpa using noLink
          rw [Path.descend_nil, filter_anomalies_self linked directory rfl]
          simp [note?, directory, noLink]
        · exact filter_note? rfl
      | cons second more =>
        have further := List.cons_ne_nil second more
        split
        · rename_i opens
          obtain ⟨directory, noLink⟩ := Bool.and_eq_true_iff.mp opens
          have noLink : tree.isLink path = false := by simpa using noLink
          rw [notes_cons_iff plain steps directory noLink further]
          exact ih directory others further
        · rename_i shut
          rw [filter_note?_of_ne (Path.trail_descend_ne others further).symm]
          refine ⟨_, Path.same_iff.mpr rfl, fun opens => absurd ?_ shut, fun _ => rfl⟩
          rw [List.dropLast_cons_of_ne_nil further, opens_cons_iff shorter steps] at opens
          simp [opens.1, opens.2.1]
    · have unlisted : ∀ path ∈ tree.entries root, path.trail ≠ .name name :: root.trail :=
        fun path member same => listed ⟨path, member, same⟩
      rw [filter_anomalies_of_unlisted linked unlisted plain]
      refine ⟨_, Path.same_iff.mpr rfl, fun opens => ?_, fun _ => rfl⟩
      cases rest with
      | nil =>
        cases noted : tree.note? (root.descend [name]) with
        | none => rfl
        | some anomaly => exact absurd (listed_of_note? linked noted step) listed
      | cons second more =>
        rw [List.dropLast_cons_of_ne_nil (List.cons_ne_nil _ _), opens_cons_iff shorter step] at opens
        obtain ⟨stored, member, same⟩ := isDirectory_iff.mp opens.1
        have steps := same.trans step
        obtain ⟨path, inEntries, trail⟩ := exists_entry (List.mem_append_right _ member) steps nofun
        exact absurd ⟨path, inEntries, trail.trans steps⟩ listed

end

theorem take_fileSystem (tree : MemoryTree) (root : Path) :
    Snapshot.take tree.fileSystem root =
      if tree.isDirectory root then .ok (tree.snapshotOf root)
      else .error { path := root, fault := .directoryMissing root } := by
  rw [Snapshot.take, within_fileSystem]
  cases tree.isDirectory root <;> rfl

def ShowsFile (tree : MemoryTree) (root : Path) (names : List String) (size : Nat) : Prop :=
  tree.Opens root names.dropLast ∧ tree.isDirectory (root.descend names) = false ∧
    ∃ content, tree.contentAt? (root.descend names) = some content ∧ size = content.utf8ByteSize

/-- A snapshot that has on every way down what the tree has there, and an anomaly for each entry that
it leaves out. -/
structure Mirrors (tree : MemoryTree) (root : Path) (snapshot : Snapshot) : Prop where
  directory : ∀ names, (∀ name ∈ names, IsPlain name) →
    ((∃ nested, (Entry.directory snapshot.entries).at? names = some (.directory nested)) ↔
      tree.Opens root names)
  file : ∀ names, (∀ name ∈ names, IsPlain name) → ∀ size,
    ((Entry.directory snapshot.entries).at? names = some (.file size) ↔
      tree.ShowsFile root names size)
  nothing : ∀ names, (∀ name ∈ names, IsPlain name) →
    ((Entry.directory snapshot.entries).at? names = none ↔
      ¬ tree.Opens root names ∧ ∀ size, ¬ tree.ShowsFile root names size)
  noted : ∀ names, (∀ name ∈ names, IsPlain name) → names ≠ [] →
    tree.Notes root names (snapshot.anomalies.filter (Anomaly.isAt (root.descend names)))
  below : ∀ anomaly ∈ snapshot.anomalies, ∃ names, names ≠ [] ∧ (∀ name ∈ names, IsPlain name) ∧
    anomaly.isAt (root.descend names) = true

theorem mirrors_snapshotOf (closed : tree.Closed)
    (linked : ∀ trail, tree.HasLink trail → tree.HasDirectory trail)
    (given : tree.isDirectory root = true) : tree.Mirrors root (tree.snapshotOf root) := by
  have directory : ∀ names, (∀ name ∈ names, IsPlain name) →
      ((∃ nested, (Entry.directory (tree.snapshotOf root).entries).at? names =
        some (.directory nested)) ↔ tree.Opens root names) := by
    intro names plain
    simp only [at?_eq_directory_iff given plain, exists_and_left, exists_eq, and_true]
  have file : ∀ names, (∀ name ∈ names, IsPlain name) → ∀ size,
      ((Entry.directory (tree.snapshotOf root).entries).at? names = some (.file size) ↔
        tree.ShowsFile root names size) := fun names plain size =>
    at?_eq_file_iff closed given plain
  refine ⟨directory, file, fun names plain => ?_, fun names plain some => ?_,
    fun anomaly member => ?_⟩
  · rw [← directory names plain]
    simp only [← file names plain]
    cases (Entry.directory (tree.snapshotOf root).entries).at? names with
    | none => simp
    | some entry => cases entry <;> simp
  · exact notes_filter_anomalies linked given plain some
  · exact isBelow_of_mem_anomalies linked given member

/-- In a tree made by changes every path stands in directories of the tree. A walk through it fails
exactly where its root is no directory, and otherwise mirrors what stands below by plain names. -/
theorem take_mirrors (changes : List Change) (root : Path) :
    (∀ path, path ∈ (after changes).paths ∨ path ∈ (after changes).links →
      ∀ outer, outer <:+ path.trail → outer ≠ [] → outer ≠ path.trail →
        (after changes).HasDirectory outer) ∧
    (Snapshot.take (after changes).fileSystem root =
        .error { path := root, fault := .directoryMissing root } ↔
      (after changes).isDirectory root = false) ∧
    ((after changes).isDirectory root = true →
      ∃ snapshot, Snapshot.take (after changes).fileSystem root = .ok snapshot ∧
        (after changes).Mirrors root snapshot) := by
  have closed := closed_after changes
  have linked : ∀ trail, (after changes).HasLink trail → (after changes).HasDirectory trail :=
    fun trail => hasDirectory_of_hasLink changes
  refine ⟨fun path stored outer above some proper => ?_, ?_, fun given => ?_⟩
  · rcases stored with entry | link
    · exact closed.hasDirectory_above entry above some proper
    · obtain ⟨directory, member, same⟩ := linked path.trail ⟨path, link, rfl⟩
      rw [← same] at above proper
      exact closed.hasDirectory_above (List.mem_append_right _ member) above some proper
  · rw [take_fileSystem]
    cases (after changes).isDirectory root <;> simp
  · refine ⟨_, ?_, mirrors_snapshotOf closed linked given⟩
    rw [take_fileSystem, if_pos given]

def vanishedUp : List Change :=
  [.addDirectory (Path.ofText "/out"), .addVanished (Path.ofText "/out/..")]

/-- An entry that is not known by a name is passed over, also when it has vanished. -/
theorem take_passesOver_vanishedUp :
    (after vanishedUp).isDirectory (Path.ofText "/out") = true ∧
      (Path.ofText "/out/..").isEntryOf (Path.ofText "/out") = true ∧
      leadsTo (after vanishedUp).vanished (Path.ofText "/out/..") = true ∧
      (after vanishedUp).isDirectory (Path.ofText "/out/..") = false ∧
      (after vanishedUp).hasFile (Path.ofText "/out/..") = false ∧
      ∃ snapshot, Snapshot.take (after vanishedUp).fileSystem (Path.ofText "/out") = .ok snapshot ∧
        snapshot.anomalies = [] := by
  have given : (after vanishedUp).isDirectory (Path.ofText "/out") = true := by decide +kernel
  have listed : (after vanishedUp).entries (Path.ofText "/out") = [Path.ofText "/out/.."] := by
    decide +kernel
  have nameless : (Path.ofText "/out/..").fileName? = none := by decide +kernel
  refine ⟨given, by decide +kernel, by decide +kernel, by decide +kernel, by decide +kernel,
    (after vanishedUp).snapshotOf (Path.ofText "/out"), ?_, ?_⟩
  · rw [take_fileSystem, if_pos given]
  · rw [anomalies_snapshotOf, listed, List.flatMap_singleton, anomalies_visitOf_nameless nameless]

end MemoryTree

end Campaign
