import Campaign.Export
import Campaign.Proofs.Diagnostics
import Campaign.Proofs.Walks
import Campaign.Series
import Mathlib.Data.List.Perm.Basic

namespace Campaign

inductive Alike {ε α : Type} (related : α → α → Prop) : Except ε α → Except ε α → Prop where
  | error (fault : ε) : Alike related (.error fault) (.error fault)
  | ok {left right : α} (values : related left right) : Alike related (.ok left) (.ok right)

namespace FileSystem

/-- The same files and directories, with the entries of each directory in whatever order. -/
structure Relists (left right : FileSystem) : Prop where
  readText : ∀ path, left.readText path = right.readText path
  isDirectory : ∀ path, left.isDirectory path = right.isDirectory path
  isLink : ∀ path, left.isLink path = right.isLink path
  size : ∀ path, left.size path = right.size path
  list : ∀ directory, Alike List.Perm (left.list directory) (right.list directory)

def NamesApart (paths : List Path) : Prop :=
  ∀ path ∈ paths, ∀ other ∈ paths, ∀ name, path.fileName? = some name →
    other.fileName? = some name → path = other

def TellsApart (files : FileSystem) : Prop :=
  ∀ directory paths, files.list directory = .ok paths → NamesApart paths

def backwards (files : FileSystem) : FileSystem :=
  { files with
    list := fun directory => (files.list directory).map List.reverse
    room_lt := by
      intro directory entries entry listing member
      cases listed : files.list directory with
      | error fault => simp [listed, Except.map] at listing
      | ok paths =>
        simp only [listed, Except.map, Except.ok.injEq] at listing
        exact files.room_lt listed (List.mem_reverse.mp (listing ▸ member)) }

theorem relists_backwards (files : FileSystem) : files.Relists files.backwards where
  readText _ := rfl
  isDirectory _ := rfl
  isLink _ := rfl
  size _ := rfl
  list directory := by
    show Alike List.Perm (files.list directory) ((files.list directory).map List.reverse)
    cases files.list directory with
    | error fault => exact .error fault
    | ok paths => exact .ok (List.reverse_perm paths).symm

end FileSystem

theorem MemoryTree.tellsApart_fileSystem (tree : MemoryTree) : tree.fileSystem.TellsApart := by
  intro directory paths listing
  have listing : tree.list directory = .ok paths := listing
  unfold MemoryTree.list at listing
  split at listing
  · cases listing
    intro path member other inEntries name named alsoNamed
    rw [fileName?_of_mem_entries member] at named
    rw [fileName?_of_mem_entries inEntries] at alsoNamed
    exact entries_unique member inEntries (named.trans alsoNamed.symm)
  · cases listing

namespace Snapshot

open FileSystem

structure SameFindings (left right : Snapshot) : Prop where
  entries : left.entries = right.entries
  anomalies : left.anomalies.Perm right.anomalies

structure Visit.SameFindings (left right : Visit) : Prop where
  found : left.found = right.found
  anomalies : left.anomalies.Perm right.anomalies

variable {left right : FileSystem}

theorem visit_relists (relists : left.Relists right) {inside others : Path → Except Fault Snapshot}
    {path : Path}
    (below : left.isDirectory path = true → left.isLink path = false →
      Alike SameFindings (inside path) (others path)) :
    (visit left inside path).SameFindings (visit right others path) := by
  unfold visit
  rw [← relists.isDirectory, ← relists.isLink, ← relists.size]
  split
  · exact ⟨rfl, .refl _⟩
  · split
    · rename_i directory
      split
      · exact ⟨rfl, .refl _⟩
      · rename_i noLink
        have alike := below directory (by simpa using noLink)
        generalize inside path = walked at alike ⊢
        generalize others path = rewalked at alike ⊢
        cases alike with
        | error fault => exact ⟨rfl, .refl _⟩
        | ok same => exact ⟨by simp only [same.entries], same.anomalies⟩
    · exact ⟨rfl, .refl _⟩

/-- Where names tell the paths apart, the entries are determined by what each visit finds. -/
theorem ofVisits_relists {inside others : Path → Except Fault Snapshot} {paths relisted : List Path}
    (order : paths.Perm relisted) (apart : NamesApart paths)
    (visits : ∀ path ∈ paths, (visit left inside path).SameFindings (visit right others path)) :
    SameFindings (ofVisits (paths.map (visit left inside)))
      (ofVisits (relisted.map (visit right others))) where
  entries := by
    have still : NamesApart relisted := fun path member other inList =>
      apart path (order.mem_iff.mpr member) other (order.mem_iff.mpr inList)
    have ascending := (isListing_ofVisits left inside paths).ascending
    have reascending := (isListing_ofVisits right others relisted).ascending
    refine ascending.eq_of_lookup reascending fun name => Option.ext fun entry => ?_
    rw [ascending.lookup_eq_some_iff, reascending.lookup_eq_some_iff,
      mem_ofVisits_iff fun path member other inList => apart path member other inList name,
      mem_ofVisits_iff fun path member other inList => still path member other inList name]
    refine exists_congr fun path => ?_
    rw [order.mem_iff]
    refine and_congr_right fun member => ?_
    rw [(visits path (order.mem_iff.mpr member)).found]
  anomalies := by
    simp only [ofVisits, List.flatMap_map]
    exact order.flatMap fun path member => (visits path member).anomalies

theorem within_relists (relists : left.Relists right) (apart : left.TellsApart)
    (directory : Path) :
    Alike SameFindings (within left (left.room directory) directory)
      (within right (right.room directory) directory) := by
  rw [within_eq left (Nat.le_refl _), within_eq right (Nat.le_refl _)]
  have listed := apart directory
  have deeper := @left.room_lt directory
  have alike := relists.list directory
  generalize left.list directory = listing at alike listed deeper ⊢
  generalize right.list directory = relisting at alike ⊢
  cases alike with
  | error fault => exact .error fault
  | ok order =>
    refine .ok (ofVisits_relists order (listed _ rfl) fun path member => ?_)
    refine visit_relists relists fun isDirectory noLink => ?_
    have := deeper rfl member isDirectory noLink
    exact within_relists relists apart path
termination_by left.room directory

theorem take_relists (relists : left.Relists right) (apart : left.TellsApart) (root : Path) :
    Alike SameFindings (take left root) (take right root) := by
  have alike := within_relists relists apart root
  unfold take
  generalize within left (left.room root) root = walked at alike ⊢
  generalize within right (right.room root) root = rewalked at alike ⊢
  cases alike with
  | error fault => exact .error _
  | ok same => exact .ok same

end Snapshot

namespace Index

variable {left right : FileSystem}

theorem ofCatalog_relists (relists : left.Relists right) (catalog : Catalog) (dialect : Dialect) :
    ofCatalog left catalog dialect = ofCatalog right catalog dialect := by
  have cells : ∀ cell, catalog.aggregate left dialect cell = catalog.aggregate right dialect cell :=
    fun cell => Catalog.aggregate_congr rfl fun _ _ file _ => relists.readText file.path
  simp only [ofCatalog, cells]

/-- With their listings in another order the same files have the same catalog, index, series and
export. The anomalies of the walk may come in another order, the later ones do not. -/
theorem build_relists (relists : left.Relists right) (apart : left.TellsApart) (root : Path) :
    ((∃ error, Snapshot.take left root = .error error ∧ Snapshot.take right root = .error error ∧
        Catalog.build left root = .error error ∧ Catalog.build right root = .error error ∧
        ∀ dialect, build left root dialect = .error error ∧
          build right root dialect = .error error) ∨
      ∃ snapshot resnapshot catalog misplaced,
        Snapshot.take left root = .ok snapshot ∧ Snapshot.take right root = .ok resnapshot ∧
        snapshot.SameFindings resnapshot ∧
        Catalog.build left root = .ok (catalog, snapshot.anomalies ++ misplaced) ∧
        Catalog.build right root = .ok (catalog, resnapshot.anomalies ++ misplaced) ∧
        ∀ dialect, ∃ index raised,
          build left root dialect = .ok (index, snapshot.anomalies ++ misplaced ++ raised) ∧
          build right root dialect = .ok (index, resnapshot.anomalies ++ misplaced ++ raised)) ∧
    ∀ dialect,
      (∀ op stripes size,
        (build left root dialect).map (fun built => built.1.series op stripes size) =
          (build right root dialect).map fun built => built.1.series op stripes size) ∧
      (build left root dialect).map (fun built => Export.text built.1) =
        (build right root dialect).map fun built => Export.text built.1 := by
  have alike := Snapshot.take_relists relists apart root
  unfold build Catalog.build
  generalize Snapshot.take left root = taken at alike ⊢
  generalize Snapshot.take right root = retaken at alike ⊢
  cases alike with
  | error fault =>
    exact ⟨.inl ⟨fault, rfl, rfl, rfl, rfl, fun _ => ⟨rfl, rfl⟩⟩, fun _ => ⟨fun _ _ _ => rfl, rfl⟩⟩
  | @ok snapshot resnapshot same =>
    simp only [Except.map, ← same.entries, ofCatalog_relists relists, implies_true, and_true]
    exact .inr ⟨snapshot, resnapshot, _, _, rfl, rfl, same, rfl, rfl, fun _ => ⟨_, _, rfl, rfl⟩⟩

def twoVanished : MemoryTree :=
  ((MemoryTree.empty.addFile (Path.ofText "/out/1/2023-07-21/out-a-4-1M-2023-07-21-n1-0.txt.1")
    "x").addVanished (Path.ofText "/out/2")).addVanished (Path.ofText "/out/4")

theorem build_relists_twoVanished :
    twoVanished.fileSystem.Relists twoVanished.fileSystem.backwards ∧
      twoVanished.fileSystem.TellsApart ∧
      ∃ snapshot resnapshot catalog misplaced,
        Snapshot.take twoVanished.fileSystem (Path.ofText "/out") = .ok snapshot ∧
        Snapshot.take twoVanished.fileSystem.backwards (Path.ofText "/out") = .ok resnapshot ∧
        snapshot.SameFindings resnapshot ∧ snapshot.anomalies ≠ resnapshot.anomalies ∧
        Catalog.build twoVanished.fileSystem (Path.ofText "/out") =
          .ok (catalog, snapshot.anomalies ++ misplaced) ∧
        Catalog.build twoVanished.fileSystem.backwards (Path.ofText "/out") =
          .ok (catalog, resnapshot.anomalies ++ misplaced) := by
  have relists := twoVanished.fileSystem.relists_backwards
  have apart := twoVanished.tellsApart_fileSystem
  let gone (text : String) : Anomaly :=
    .vanishedEntry (Path.ofText text) (.fileMissing (Path.ofText text))
  have forwards : (Snapshot.take twoVanished.fileSystem (Path.ofText "/out")).map (·.anomalies) =
      .ok [gone "/out/2", gone "/out/4"] := by
    decide +kernel
  have back : (Snapshot.take twoVanished.fileSystem.backwards (Path.ofText "/out")).map
      (·.anomalies) = .ok [gone "/out/4", gone "/out/2"] := by
    decide +kernel
  refine ⟨relists, apart, ?_⟩
  rcases (build_relists relists apart (Path.ofText "/out")).1 with
    ⟨error, unreadable, _⟩ |
      ⟨snapshot, resnapshot, catalog, misplaced, taken, retaken, same, built, rebuilt, _⟩
  · rw [unreadable] at forwards
    cases forwards
  · refine ⟨snapshot, resnapshot, catalog, misplaced, taken, retaken, same, ?_, built, rebuilt⟩
    rw [taken] at forwards
    rw [retaken] at back
    have first : snapshot.anomalies = [gone "/out/2", gone "/out/4"] := Except.ok.inj forwards
    have second : resnapshot.anomalies = [gone "/out/4", gone "/out/2"] := Except.ok.inj back
    rw [first, second]
    decide +kernel

end Index

end Campaign
