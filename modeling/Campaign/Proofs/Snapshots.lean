import Campaign.Proofs.Paths
import Campaign.Proofs.Tables
import Campaign.Snapshot

namespace Campaign

/-- What holds of the entries of a directory and of those of all directories inside. -/
inductive Throughout (holds : List (String × Entry) → Prop) : List (String × Entry) → Prop where
  | of {entries : List (String × Entry)} (here : holds entries)
      (inside : ∀ name nested, (name, Entry.directory nested) ∈ entries → Throughout holds nested) :
      Throughout holds entries

namespace Throughout

variable {holds weaker : List (String × Entry) → Prop} {entries : List (String × Entry)}

theorem here (all : Throughout holds entries) : holds entries := by
  cases all
  assumption

theorem inside (all : Throughout holds entries) {name : String} {nested : List (String × Entry)}
    (member : (name, Entry.directory nested) ∈ entries) : Throughout holds nested := by
  cases all with
  | of _ inside => exact inside name nested member

theorem mono (all : Throughout holds entries) (weaken : ∀ entries, holds entries → weaker entries) :
    Throughout weaker entries := by
  induction all with
  | of here _ ih => exact .of (weaken _ here) ih

end Throughout

def Entry.at? : Entry → List String → Option Entry
  | entry, [] => some entry
  | .file _, _ :: _ => none
  | .directory entries, name :: rest => (entries.lookup name).bind fun entry => entry.at? rest

namespace Entry

@[simp] theorem at?_nil (entry : Entry) : entry.at? [] = some entry := by
  cases entry <;> rfl

theorem at?_directory_cons (entries : List (String × Entry)) (name : String) (rest : List String) :
    (directory entries).at? (name :: rest) =
      (entries.lookup name).bind fun entry => entry.at? rest := rfl

theorem at?_append (entry : Entry) (front back : List String) :
    entry.at? (front ++ back) = (entry.at? front).bind fun inner => inner.at? back := by
  induction front generalizing entry with
  | nil => simp
  | cons name rest ih =>
    cases entry with
    | file size => rfl
    | directory entries =>
      rw [List.cons_append, at?_directory_cons, at?_directory_cons, Option.bind_assoc]
      exact Option.bind_congr fun inner _ => ih inner

theorem at?_concat_eq_some_iff {entry inner : Entry} {front : List String} {name : String} :
    entry.at? (front ++ [name]) = some inner ↔
      ∃ entries, entry.at? front = some (.directory entries) ∧ entries.lookup name = some inner := by
  rw [at?_append, Option.bind_eq_some_iff]
  constructor
  · intro given
    obtain ⟨outer, found, last⟩ := given
    cases outer with
    | file size => cases last
    | directory entries => exact ⟨entries, found, by simpa [at?_directory_cons] using last⟩
  · intro given
    obtain ⟨entries, found, last⟩ := given
    exact ⟨_, found, by simp [at?_directory_cons, last]⟩

end Entry

/-- Entries as a walk lists them: each name once, in ascending order, and each name plain. -/
structure IsListing (entries : List (String × Entry)) : Prop where
  ascending : Ascending entries
  plain : ∀ entry ∈ entries, IsPlain entry.1

namespace Snapshot

theorem ascending_foldl_insertPair (found : List (String × Entry)) {entries : List (String × Entry)}
    (ascending : Ascending entries) :
    Ascending (found.foldl (fun entries found => insertPair found.1 found.2 entries) entries) := by
  induction found generalizing entries with
  | nil => exact ascending
  | cons head rest ih => exact ih (ascending.insertPair head.1 head.2)

theorem mem_foldl_insertPair {found entries : List (String × Entry)} {entry : String × Entry}
    (member : entry ∈ found.foldl (fun entries found => insertPair found.1 found.2 entries) entries) :
    entry ∈ found ∨ entry ∈ entries := by
  induction found generalizing entries with
  | nil => exact Or.inr member
  | cons head rest ih =>
    rcases ih member with inRest | inEntries
    · exact Or.inl (List.mem_cons_of_mem _ inRest)
    · rcases mem_insertPair inEntries with rfl | old
      · exact Or.inl List.mem_cons_self
      · exact Or.inr old

theorem found_of_mem_ofVisits {visits : List Visit} {entry : String × Entry}
    (member : entry ∈ (ofVisits visits).entries) : ∃ visit ∈ visits, visit.found = some entry := by
  rcases mem_foldl_insertPair member with inFound | absurdly
  · exact List.mem_filterMap.mp inFound
  · exact absurd absurdly List.not_mem_nil

theorem lookup_foldl_insertPair (found entries : List (String × Entry)) {name : String}
    (given : (entries.lookup name).isSome ∨ ∃ entry, (name, entry) ∈ found) :
    ((found.foldl (fun entries found => insertPair found.1 found.2 entries) entries).lookup
      name).isSome := by
  induction found generalizing entries with
  | nil =>
    rcases given with old | ⟨_, absurdly⟩
    · exact old
    · exact absurd absurdly List.not_mem_nil
  | cons head rest ih =>
    rw [List.foldl_cons]
    apply ih
    by_cases same : name = head.1
    · left
      rw [same, lookup_insertPair_self]
      rfl
    · rw [lookup_insertPair_of_ne same]
      rcases given with old | ⟨entry, member⟩
      · exact Or.inl old
      · rcases List.mem_cons.mp member with here | inRest
        · exact absurd (congrArg Prod.fst here) same
        · exact Or.inr ⟨entry, inRest⟩

theorem visit_found_iff {files : FileSystem} {inside : Path → Except Fault Snapshot} {path : Path}
    {name : String} {entry : Entry} :
    (visit files inside path).found = some (name, entry) ↔
      path.fileName? = some name ∧
        ((∃ nested, files.isDirectory path = true ∧ files.isLink path = false ∧
            inside path = .ok nested ∧ entry = .directory nested.entries) ∨
          (∃ size, files.isDirectory path = false ∧ files.size path = .ok size ∧
            entry = .file size)) := by
  constructor
  · intro found
    unfold visit at found
    split at found
    · cases found
    · rename_i text last
      split at found
      · rename_i directory
        split at found
        · cases found
        · rename_i noLink
          split at found
          · rename_i nested opened
            cases found
            exact ⟨last, Or.inl ⟨nested, directory, by simpa using noLink, opened, rfl⟩⟩
          · cases found
      · rename_i noDirectory
        split at found
        · rename_i size measured
          cases found
          exact ⟨last, Or.inr ⟨size, by simpa using noDirectory, measured, rfl⟩⟩
        · cases found
  · intro given
    rcases given with ⟨last, ⟨nested, directory, noLink, opened, rfl⟩ | ⟨size, noDirectory, measured, rfl⟩⟩
    · simp [visit, last, directory, noLink, opened]
    · simp [visit, last, noDirectory, measured, Visit.nothing]

theorem visit_anomalies {files : FileSystem} {inside : Path → Except Fault Snapshot} {path : Path}
    (below : ∀ nested, inside path = .ok nested → ∀ a ∈ nested.anomalies, a.isViolation = false) :
    ∀ a ∈ (visit files inside path).anomalies, a.isViolation = false := by
  unfold visit
  split
  · simp [Visit.nothing]
  · split
    · split
      · simp [Anomaly.isViolation]
      · split
        · rename_i nested opened
          exact below nested opened
        · simp [Anomaly.isViolation]
    · split
      · simp [Visit.nothing]
      · simp [Anomaly.isViolation]

theorem isListing_ofVisits (files : FileSystem) (inside : Path → Except Fault Snapshot)
    (paths : List Path) : IsListing (ofVisits (paths.map (visit files inside))).entries where
  ascending := ascending_foldl_insertPair _ List.Pairwise.nil
  plain := by
    intro entry member
    obtain ⟨_, inVisits, found⟩ := found_of_mem_ofVisits member
    obtain ⟨path, _, rfl⟩ := List.mem_map.mp inVisits
    exact Path.plain_of_fileName? (visit_found_iff.mp found).1

theorem mem_ofVisits_iff {files : FileSystem} {inside : Path → Except Fault Snapshot}
    {paths : List Path} {name : String} {entry : Entry}
    (apart : ∀ path ∈ paths, ∀ other ∈ paths, path.fileName? = some name →
      other.fileName? = some name → path = other) :
    (name, entry) ∈ (ofVisits (paths.map (visit files inside))).entries ↔
      ∃ path ∈ paths, (visit files inside path).found = some (name, entry) := by
  constructor
  · intro member
    obtain ⟨_, inVisits, found⟩ := found_of_mem_ofVisits member
    obtain ⟨path, inPaths, rfl⟩ := List.mem_map.mp inVisits
    exact ⟨path, inPaths, found⟩
  · intro given
    obtain ⟨path, inPaths, found⟩ := given
    have inFound : (name, entry) ∈ (paths.map (visit files inside)).filterMap (·.found) :=
      List.mem_filterMap.mpr ⟨_, List.mem_map_of_mem inPaths, found⟩
    -- An entry of that name is kept, and no other visit can have found it.
    obtain ⟨kept, present⟩ := Option.isSome_iff_exists.mp
      (lookup_foldl_insertPair _ [] (Or.inr ⟨entry, inFound⟩))
    have member : (name, kept) ∈ (ofVisits (paths.map (visit files inside))).entries :=
      (isListing_ofVisits files inside paths).ascending.lookup_eq_some_iff.mp present
    obtain ⟨_, inVisits, keptFound⟩ := found_of_mem_ofVisits member
    obtain ⟨other, inOthers, rfl⟩ := List.mem_map.mp inVisits
    obtain rfl := apart path inPaths other inOthers (visit_found_iff.mp found).1
      (visit_found_iff.mp keptFound).1
    rw [found] at keptFound
    cases keptFound
    exact member

theorem ofVisits_keeps {files : FileSystem} {inside : Path → Except Fault Snapshot}
    (below : ∀ path nested, inside path = .ok nested → Throughout IsListing nested.entries ∧
      ∀ a ∈ nested.anomalies, a.isViolation = false) (paths : List Path) :
    Throughout IsListing (ofVisits (paths.map (visit files inside))).entries ∧
      ∀ a ∈ (ofVisits (paths.map (visit files inside))).anomalies, a.isViolation = false := by
  constructor
  · refine .of (isListing_ofVisits files inside paths) fun name nested member => ?_
    obtain ⟨_, inVisits, found⟩ := found_of_mem_ofVisits member
    obtain ⟨path, _, rfl⟩ := List.mem_map.mp inVisits
    rcases (visit_found_iff.mp found).2 with ⟨snapshot, _, _, opened, same⟩ | ⟨_, _, _, same⟩
    · cases same
      exact (below path snapshot opened).1
    · cases same
  · intro a member
    obtain ⟨_, inVisits, noted⟩ := List.mem_flatMap.mp member
    obtain ⟨path, _, rfl⟩ := List.mem_map.mp inVisits
    exact visit_anomalies (fun nested opened => (below path nested opened).2) a noted

theorem within_keeps {files : FileSystem} {depth : Nat} {directory : Path} {snapshot : Snapshot}
    (walked : within files depth directory = .ok snapshot) :
    Throughout IsListing snapshot.entries ∧ ∀ a ∈ snapshot.anomalies, a.isViolation = false := by
  induction depth generalizing directory snapshot with
  | zero =>
    cases listing : files.list directory with
    | error fault => simp [within, listing, Except.map] at walked
    | ok paths =>
      simp only [within, listing, Except.map, Except.ok.injEq] at walked
      exact walked ▸ ofVisits_keeps (fun _ _ opened => by cases opened) paths
  | succ depth ih =>
    cases listing : files.list directory with
    | error fault => simp [within, listing, Except.map] at walked
    | ok paths =>
      simp only [within, listing, Except.map, Except.ok.injEq] at walked
      exact walked ▸ ofVisits_keeps (fun _ _ => ih) paths

theorem take_eq_ok_iff {files : FileSystem} {root : Path} {snapshot : Snapshot} :
    take files root = .ok snapshot ↔ within files (files.room root) root = .ok snapshot := by
  unfold take
  split <;> simp_all

theorem take_of_listable {files : FileSystem} {root : Path} {paths : List Path}
    (listable : files.list root = .ok paths) : ∃ snapshot, take files root = .ok snapshot := by
  refine ⟨ofVisits (paths.map (visit files fun path => within files (files.room path) path)), ?_⟩
  rw [take_eq_ok_iff, within_eq files (Nat.le_refl _), listable]
  rfl

theorem take_eq_error_iff {files : FileSystem} {root : Path} {error : RootUnreadable} :
    take files root = .error error ↔
      ∃ fault, files.list root = .error fault ∧ error = { path := root, fault := fault } := by
  unfold take
  rw [within_eq files (Nat.le_refl _)]
  cases listing : files.list root with
  | error fault => simp [Except.map, eq_comm]
  | ok paths => simp [Except.map]

end Snapshot

end Campaign
