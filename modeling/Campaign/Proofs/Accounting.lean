import Campaign.Proofs.Catalogs
import Mathlib.Data.List.Induction
import Mathlib.Data.List.Pairwise

namespace Campaign

def Anomaly.path? : Anomaly → Option Path
  | .unrecognizedName path => some path
  | .unexpectedEntry path _ => some path
  | .vanishedEntry path _ => some path
  | .unusableFile path _ => some path
  | .countMismatch _ _ _ _ => none
  | .missingCell _ _ => none

theorem flatMap_eq_of_single {α β : Type} {f : α → List β} {items : List α} {item : α}
    (nodup : items.Nodup) (member : item ∈ items)
    (elsewhere : ∀ other ∈ items, other ≠ item → f other = []) : items.flatMap f = f item := by
  obtain ⟨before, after, split⟩ := List.append_of_mem member
  subst split
  obtain ⟨_, rest, apart⟩ := List.nodup_append.mp nodup
  have silentBefore : before.flatMap f = [] := by
    refine List.flatMap_eq_nil_iff.mpr fun other inBefore => ?_
    exact elsewhere other (List.mem_append_left _ inBefore)
      (apart other inBefore item List.mem_cons_self)
  have silentAfter : after.flatMap f = [] := by
    refine List.flatMap_eq_nil_iff.mpr fun other inAfter => ?_
    refine elsewhere other (List.mem_append_right _ (List.mem_cons_of_mem _ inAfter)) ?_
    intro same
    exact (List.nodup_cons.mp rest).1 (same ▸ inAfter)
  rw [List.flatMap_append, silentBefore, List.nil_append, List.flatMap_cons, silentAfter,
    List.append_nil]

theorem filterMap_eq_toList {α β : Type} {f : α → Option β} {items : List α} {item : α}
    (nodup : items.Nodup) (member : item ∈ items)
    (elsewhere : ∀ other ∈ items, other ≠ item → f other = none) :
    items.filterMap f = (f item).toList := by
  rw [List.filterMap_eq_flatMap_toList]
  refine flatMap_eq_of_single nodup member fun other inItems apart => ?_
  rw [elsewhere other inItems apart, Option.toList_none]

namespace Place

theorem path?_of_anomaly? {root : Path} {place : Place} {anomaly : Anomaly}
    (found : place.anomaly? root = some anomaly) : anomaly.path? = some (place.path root) := by
  unfold anomaly? at found
  split at found
  · cases found
    rfl
  · cases found
    rfl
  · cases found
    rfl
  · split at found
    · cases found
    · cases found
      rfl
  · cases found

/-- The node count and the name of an output file, by which a catalog tells files apart. -/
def key? (place : Place) : Option (String × String) :=
  match place with
  | .ofDate nodes _ name (.file _) =>
    match RunName.recognize name with
    | .ok _ => some (nodes, name)
    | .error _ => none
  | _ => none

theorem key?_eq_some_iff {place : Place} {nodes name : String} :
    place.key? = some (nodes, name) ↔
      ∃ date size runName, place = .ofDate nodes date name (.file size) ∧
        RunName.recognize name = .ok runName := by
  constructor
  · intro found
    unfold key? at found
    split at found
    · rename_i nodes' date name' size
      split at found
      · rename_i runName recognized
        cases found
        exact ⟨date, size, runName, rfl, recognized⟩
      · cases found
    · cases found
  · intro given
    obtain ⟨date, size, runName, rfl, recognized⟩ := given
    simp [key?, recognized]

theorem key?_eq_none {root : Path} {place : Place} (missing : place.output? root = none) :
    place.key? = none := by
  cases key : place.key? with
  | none => rfl
  | some pair =>
    obtain ⟨date, size, runName, rfl, recognized⟩ := key?_eq_some_iff.mp key
    simp only [output?, recognized, reduceCtorEq] at missing

end Place

namespace Catalog

section

variable {root : Path} {nodes : String}

theorem isSome_getIn?_foldl_addPlace (root : Path) {places : List Place} {name : String}
    {runName : RunName} (below : AllBelow nodes places)
    (recognized : RunName.recognize name = .ok runName) :
    (Table.getIn? (places.foldl (addPlace root) .empty) runName.stripeCount runName.stripeSize
        name).isSome = true ↔
      (nodes, name) ∈ places.filterMap Place.key? := by
  have start : Table.getIn? (Table.empty : ClassOutputs) runName.stripeCount runName.stripeSize
      name = none := rfl
  rw [getIn?_foldl_addPlace, start, Option.or_none, List.findSome?_isSome_iff, List.mem_filterMap]
  constructor
  · intro given
    obtain ⟨place, member, hit⟩ := given
    obtain ⟨file, hit⟩ := Option.isSome_iff_exists.mp hit
    obtain ⟨⟨nodes', date, rfl⟩, found, _⟩ := outputAt?_eq_some_iff.mp hit
    rw [List.mem_reverse] at member
    obtain rfl := below.nodes_eq member
    exact ⟨_, member, Place.key?_eq_some_iff.mpr ⟨date, file.size, file.name, rfl, found⟩⟩
  · intro given
    obtain ⟨place, member, key⟩ := given
    obtain ⟨date, size, _, rfl, _⟩ := Place.key?_eq_some_iff.mp key
    let file : OutputFile :=
      { size := size, path := Place.path root (.ofDate nodes date name (.file size)),
        name := runName }
    have hit : outputAt? root runName.stripeCount runName.stripeSize name
        (.ofDate nodes date name (.file file.size)) = some file := by
      apply outputAt?_eq_some_iff.mpr
      refine ⟨⟨nodes, date, rfl⟩, recognized, ?_, rfl, rfl⟩
      dsimp only [file]
    exact ⟨_, List.mem_reverse.mpr member, Option.isSome_iff_exists.mpr ⟨file, hit⟩⟩

theorem sizeIn_foldl_addPlace (root : Path) {places : List Place} (below : AllBelow nodes places) :
    Table.sizeIn (places.foldl (addPlace root) .empty) =
      (places.filterMap Place.key?).dedup.length := by
  -- From the end, so that the last file meets the names that were there before it.
  induction places using List.reverseRecOn with
  | nil => rfl
  | append_singleton earlier place ih =>
    have before : AllBelow nodes earlier := fun place member =>
      below place (List.mem_append_left _ member)
    have count := ih before
    rw [List.foldl_append, List.filterMap_append, List.foldl_cons, List.foldl_nil]
    cases output : place.output? root with
    | none =>
      have noKey := Place.key?_eq_none output
      simp [addPlace_of_none output, noKey, count]
    | some file =>
      obtain ⟨nodes', date, name, rfl, recognized, _⟩ := Place.output?_eq_some_iff.mp output
      obtain rfl := below.nodes_eq (List.mem_append_right _ List.mem_cons_self)
      have key : [Place.ofDate nodes' date name (.file file.size)].filterMap Place.key? =
          [(nodes', name)] := by
        rw [List.filterMap_cons_some
            (Place.key?_eq_some_iff.mpr ⟨date, file.size, file.name, rfl, recognized⟩),
          List.filterMap_nil]
      have taken := isSome_getIn?_foldl_addPlace root before recognized
      rw [addPlace_of_some output, Table.sizeIn_insertIn, key, length_dedup_concat, count]
      by_cases member : (nodes', name) ∈ earlier.filterMap Place.key?
      · rw [if_pos member, if_pos (taken.mpr member)]
      · rw [if_neg member, if_neg fun given => member (taken.mp given)]

variable {entries : List (String × Entry)}

theorem ofDate_of_mem_keys {key : String × String} {places : List Place}
    (member : key ∈ places.filterMap Place.key?) :
    ∃ date size, .ofDate key.1 date key.2 (.file size) ∈ places := by
  obtain ⟨place, inPlaces, found⟩ := List.mem_filterMap.mp member
  obtain ⟨date, size, _, rfl, _⟩ := Place.key?_eq_some_iff.mp found
  exact ⟨date, size, inPlaces⟩

theorem fileCount_ofEntries (ascending : Ascending entries) :
    (ofEntries root entries).fileCount =
      ((places entries).filterMap Place.key?).dedup.length := by
  have sum : (ofEntries root entries).fileCount =
      (ofEntries root entries).classes.pairs.foldr (fun pair sum => pair.2.sizeIn + sum) 0 := rfl
  rw [sum, pairs_classes_ofEntries root ascending]
  clear sum
  induction entries with
  | nil => rfl
  | cons head rest ih =>
    obtain ⟨nodes, entry⟩ := head
    have above := (List.pairwise_cons.mp ascending).1
    have tail := ih (List.Pairwise.of_cons ascending)
    have cut : (places ((nodes, entry) :: rest)).filterMap Place.key? =
        (placesOfClass nodes entry).filterMap Place.key? ++
          (places rest).filterMap Place.key? := by
      have head : (Place.ofRoot nodes entry).key? = none := rfl
      rw [places, List.flatMap_cons, List.filterMap_append, List.filterMap_cons_none head]
      rfl
    rw [cut]
    cases entry with
    | file size => simpa [placesOfClass] using tail
    | directory dates =>
      have apart : List.Disjoint ((placesOfClass nodes (.directory dates)).filterMap Place.key?)
          ((places rest).filterMap Place.key?) := by
        intro key inClass inRest
        obtain ⟨_, _, ofClass⟩ := ofDate_of_mem_keys inClass
        obtain ⟨_, _, ofRest⟩ := ofDate_of_mem_keys inRest
        obtain ⟨others, _, inEntries, _⟩ := ofDate_mem_places.mp ofRest
        have less : nodes < key.1 := above (key.1, .directory others) inEntries
        rw [(allBelow_placesOfClass nodes _).nodes_eq ofClass] at less
        exact String.lt_irrefl nodes less
      rw [apart.dedup_append, List.length_append, ← tail,
        ← sizeIn_foldl_addPlace root (allBelow_placesOfClass nodes _)]
      simp [collect_recognizeClass]

/-- With plain names an entry is the only one that its path leads to, so the path has the anomaly of
the entry and no other. -/
theorem filter_anomaliesOf (listing : Throughout IsListing entries) {place : Place}
    (member : place ∈ places entries) :
    (anomaliesOf root entries).filter (fun anomaly => anomaly.path?.any (place.path root).same) =
      (place.anomaly? root).toList := by
  have nodup : (places entries).Nodup :=
    .of_map Place.names (nodup_names (listing.mono fun _ listed => listed.ascending))
  have elsewhere : ∀ other ∈ places entries, other ≠ place →
      (other.anomaly? root).filter (fun anomaly => anomaly.path?.any (place.path root).same) =
        none := by
    intro other inPlaces apart
    rw [Option.filter_eq_none_iff]
    intro anomaly found noted
    rw [Place.path?_of_anomaly? found, Option.any_some] at noted
    exact apart (Place.eq_of_same_path listing member inPlaces noted).symm
  have here : (place.anomaly? root).filter (fun anomaly => anomaly.path?.any (place.path root).same) =
      place.anomaly? root := by
    cases found : place.anomaly? root with
    | none => rfl
    | some anomaly => simp [Place.path?_of_anomaly? found, Path.same_iff]
  rw [anomaliesOf_eq, List.filter_filterMap, filterMap_eq_toList nodup member elsewhere, here]

/-- A catalog counts every file exactly if no name is used under two dates of one node count. -/
theorem length_dedup_keys_eq_iff (ordered : Throughout Ascending entries) :
    ((places entries).filterMap Place.key?).dedup.length =
        ((places entries).filterMap Place.key?).length ↔
      ∀ nodes date later name size other runName,
        .ofDate nodes date name (.file size) ∈ places entries →
        .ofDate nodes later name (.file other) ∈ places entries →
        RunName.recognize name = .ok runName → date = later := by
  rw [(List.dedup_sublist _).length_eq, List.dedup_eq_self, List.Nodup, List.pairwise_filterMap]
  constructor
  · intro apart nodes date later name size other runName first second recognized
    let left : Place := .ofDate nodes date name (.file size)
    let right : Place := .ofDate nodes later name (.file other)
    let Apart (p q : Place) : Prop :=
      ∀ key, p.key? = some key → ∀ key', q.key? = some key' → key ≠ key'
    have symmetric : Std.Symm Apart :=
      ⟨fun p q away key found key' found' => (away key' found' key found).symm⟩
    have leftKey : left.key? = some (nodes, name) :=
      Place.key?_eq_some_iff.mpr ⟨date, size, runName, rfl, recognized⟩
    have rightKey : right.key? = some (nodes, name) :=
      Place.key?_eq_some_iff.mpr ⟨later, other, runName, rfl, recognized⟩
    have same : left = right := by
      rcases Classical.em (left = right) with same | different
      · exact same
      · exact absurd rfl (apart.forall first second different _ leftKey _ rightKey)
    exact (Place.ofDate.inj same).2.1
  · intro unique
    refine (places_ascending ordered).imp_of_mem fun {p q} inPlaces inPlaces' less => ?_
    intro ⟨nodes, name⟩ key ⟨nodes', name'⟩ key' same
    obtain ⟨rfl, rfl⟩ := Prod.mk.inj same
    obtain ⟨date, size, runName, rfl, recognized⟩ := Place.key?_eq_some_iff.mp key
    obtain ⟨later, other, _, rfl, _⟩ := Place.key?_eq_some_iff.mp key'
    have dates := unique nodes date later name size other runName inPlaces inPlaces' recognized
    subst dates
    exact String.lt_irrefl _ (Place.names_ofDate_lt_iff.mp less)

/-- Every entry has at most its one anomaly and every file of a catalog is that of the latest date
with its name; the files of earlier dates are in neither. -/
theorem ofEntries_accounts (root : Path) (ordered : Throughout Ascending entries) :
    anomaliesOf root entries = (places entries).filterMap (Place.anomaly? root) ∧
      (Throughout IsListing entries → ∀ place ∈ places entries,
        (anomaliesOf root entries).filter
            (fun anomaly => anomaly.path?.any (place.path root).same) =
          (place.anomaly? root).toList) ∧
      (∀ nodes count size name file,
        (ofEntries root entries).file? nodes count size name = some file ↔
          ∃ date, .ofDate nodes date name (.file file.size) ∈ places entries ∧
            RunName.recognize name = .ok file.name ∧
            file.path = Place.path root (.ofDate nodes date name (.file file.size)) ∧
            file.name.stripeCount = count ∧ file.name.stripeSize = size ∧
            ∀ later other, .ofDate nodes later name (.file other) ∈ places entries →
              ¬ date < later) ∧
      (ofEntries root entries).fileCount =
        ((places entries).filterMap Place.key?).dedup.length ∧
      ((ofEntries root entries).fileCount = (places entries).countP (·.key?.isSome) ↔
        ∀ nodes date later name size other runName,
          .ofDate nodes date name (.file size) ∈ places entries →
          .ofDate nodes later name (.file other) ∈ places entries →
          RunName.recognize name = .ok runName → date = later) := by
  have count : (ofEntries root entries).fileCount =
      ((places entries).filterMap Place.key?).dedup.length := fileCount_ofEntries ordered.here
  refine ⟨anomaliesOf_eq root entries, ?_, ?_, count, ?_⟩
  · intro listing place member
    exact filter_anomaliesOf listing member
  · intro nodes count size name file
    exact file?_eq_some_iff ordered
  · rw [count, ← List.length_filterMap_eq_countP]
    exact length_dedup_keys_eq_iff ordered

def repeatedName : List (String × Entry) :=
  let name := "out-a-4-1M-2023-07-21-n1-0.txt.1"
  [("1", .directory
    [("2023-07-21", .directory [(name, .file 1)]), ("2023-07-22", .directory [(name, .file 2)])])]

theorem ascending_repeatedName : Throughout Ascending repeatedName := by
  have single : ∀ name size, Throughout Ascending [(name, Entry.file size)] := by
    intro name size
    exact .of (List.pairwise_singleton _ _) fun _ _ member => by simp at member
  refine .of (List.pairwise_singleton _ _) fun nodes dates member => ?_
  cases List.mem_singleton.mp member
  have less : "2023-07-21" < "2023-07-22" := by decide
  refine .of (List.pairwise_pair.mpr less) fun date files member => ?_
  rcases List.mem_cons.mp member with same | member
  · cases same
    exact single _ _
  · cases List.mem_singleton.mp member
    exact single _ _

theorem ofEntries_accounts_repeatedName :
    (ofEntries (Path.ofText "/out") repeatedName).fileCount = 1 ∧
      (places repeatedName).countP (·.key?.isSome) = 2 ∧
      anomaliesOf (Path.ofText "/out") repeatedName = [] := by
  obtain ⟨anomalies, _, _, count, _⟩ :=
    ofEntries_accounts (Path.ofText "/out") ascending_repeatedName
  refine ⟨?_, by decide +kernel, ?_⟩
  · rw [count]
    decide +kernel
  · rw [anomalies]
    decide +kernel

end

end Catalog

end Campaign
