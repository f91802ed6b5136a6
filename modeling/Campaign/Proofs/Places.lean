import Campaign.Catalog
import Campaign.Proofs.NestedTables
import Campaign.Proofs.Snapshots
import Mathlib.Data.List.Nodup

namespace Campaign

/-- An entry on one of the three levels of the layout, with the names on the way to it. -/
inductive Place where
  | ofRoot (nodes : String) (entry : Entry)
  | ofClass (nodes date : String) (entry : Entry)
  | ofDate (nodes date name : String) (entry : Entry)

namespace Place

def names : Place → List String
  | .ofRoot nodes _ => [nodes]
  | .ofClass nodes date _ => [nodes, date]
  | .ofDate nodes date name _ => [nodes, date, name]

@[simp] theorem names_ofRoot (nodes : String) (entry : Entry) :
    (ofRoot nodes entry).names = [nodes] := rfl

@[simp] theorem names_ofClass (nodes date : String) (entry : Entry) :
    (ofClass nodes date entry).names = [nodes, date] := rfl

@[simp] theorem names_ofDate (nodes date name : String) (entry : Entry) :
    (ofDate nodes date name entry).names = [nodes, date, name] := rfl

theorem names_ofDate_lt_iff {nodes date later name : String} {entry other : Entry} :
    (ofDate nodes date name entry).names < (ofDate nodes later name other).names ↔
      date < later := by
  simp [List.cons_lt_cons_iff]

def path (root : Path) (place : Place) : Path := place.names.foldl Path.join root

theorem path_ofDate (root : Path) (nodes date name : String) (entry : Entry) :
    (ofDate nodes date name entry).path root = ((root.join nodes).join date).join name := by
  simp only [path, names_ofDate, List.foldl_cons, List.foldl_nil]

def anomaly? (root : Path) (place : Place) : Option Anomaly :=
  match place with
  | .ofRoot _ (.file _) => some (.unexpectedEntry (place.path root) .notClassDirectory)
  | .ofClass _ _ (.file _) => some (.unexpectedEntry (place.path root) .notDateDirectory)
  | .ofDate _ _ _ (.directory _) => some (.unexpectedEntry (place.path root) .nestedDirectory)
  | .ofDate _ _ name (.file _) =>
    match RunName.recognize name with
    | .ok _ => none
    | .error _ => some (.unrecognizedName (place.path root))
  | _ => none

def output? (root : Path) (place : Place) : Option OutputFile :=
  match place with
  | .ofDate _ _ name (.file size) =>
    match RunName.recognize name with
    | .ok runName => some { size := size, path := place.path root, name := runName }
    | .error _ => none
  | _ => none

theorem output?_eq_some_iff {root : Path} {place : Place} {file : OutputFile} :
    place.output? root = some file ↔
      ∃ nodes date name, place = .ofDate nodes date name (.file file.size) ∧
        RunName.recognize name = .ok file.name ∧ file.path = place.path root := by
  constructor
  · intro found
    unfold output? at found
    split at found
    · rename_i nodes date name size
      split at found
      · rename_i runName recognized
        cases found
        dsimp only
        exact ⟨nodes, date, name, rfl, recognized, rfl⟩
      · cases found
    · cases found
  · intro given
    obtain ⟨nodes, date, name, rfl, recognized, same⟩ := given
    simp [output?, recognized, ← same]

end Place

def placesOfDate (nodes date : String) : Entry → List Place
  | .file _ => []
  | .directory files => files.map fun (name, entry) => .ofDate nodes date name entry

def placesOfClass (nodes : String) : Entry → List Place
  | .file _ => []
  | .directory dates => dates.flatMap fun (date, entry) =>
    .ofClass nodes date entry :: placesOfDate nodes date entry

def places (entries : List (String × Entry)) : List Place :=
  entries.flatMap fun (nodes, entry) => .ofRoot nodes entry :: placesOfClass nodes entry

section

variable {entries : List (String × Entry)} {nodes date name : String} {entry : Entry}

theorem ofDate_mem_places :
    .ofDate nodes date name entry ∈ places entries ↔
      ∃ dates files, (nodes, Entry.directory dates) ∈ entries ∧
        (date, Entry.directory files) ∈ dates ∧ (name, entry) ∈ files := by
  constructor
  · intro member
    obtain ⟨⟨nodes', outer⟩, inEntries, below⟩ := List.mem_flatMap.mp member
    cases outer with
    | file size => simp [placesOfClass] at below
    | directory dates =>
      simp only [placesOfClass, List.mem_cons, reduceCtorEq, false_or] at below
      obtain ⟨⟨date', middle⟩, inDates, below⟩ := List.mem_flatMap.mp below
      cases middle with
      | file size => simp [placesOfDate] at below
      | directory files =>
        simp only [placesOfDate, List.mem_cons, reduceCtorEq, false_or, List.mem_map] at below
        obtain ⟨⟨name', inner⟩, inFiles, same⟩ := below
        cases same
        exact ⟨dates, files, inEntries, inDates, inFiles⟩
  · intro given
    obtain ⟨dates, files, inEntries, inDates, inFiles⟩ := given
    refine List.mem_flatMap.mpr ⟨_, inEntries, List.mem_cons_of_mem _ ?_⟩
    refine List.mem_flatMap.mpr ⟨_, inDates, List.mem_cons_of_mem _ ?_⟩
    exact List.mem_map.mpr ⟨_, inFiles, rfl⟩

theorem names_of_mem_placesOfDate {place : Place} (member : place ∈ placesOfDate nodes date entry) :
    ∃ name, place.names = [nodes, date, name] := by
  cases entry with
  | file size => simp [placesOfDate] at member
  | directory files =>
    obtain ⟨⟨name, inner⟩, _, rfl⟩ := List.mem_map.mp member
    exact ⟨name, rfl⟩

theorem names_of_mem_cons_placesOfDate {place : Place}
    (member : place ∈ .ofClass nodes date entry :: placesOfDate nodes date entry) :
    ∃ inner, place.names = nodes :: date :: inner := by
  rcases List.mem_cons.mp member with rfl | below
  · exact ⟨[], rfl⟩
  · obtain ⟨name, same⟩ := names_of_mem_placesOfDate below
    exact ⟨[name], same⟩

theorem names_of_mem_placesOfClass {place : Place} (member : place ∈ placesOfClass nodes entry) :
    ∃ date inner, place.names = nodes :: date :: inner := by
  cases entry with
  | file size => simp [placesOfClass] at member
  | directory dates =>
    obtain ⟨⟨date, middle⟩, _, below⟩ := List.mem_flatMap.mp member
    exact ⟨date, names_of_mem_cons_placesOfDate below⟩

theorem names_of_mem_cons_placesOfClass {place : Place}
    (member : place ∈ .ofRoot nodes entry :: placesOfClass nodes entry) :
    ∃ inner, place.names = nodes :: inner := by
  rcases List.mem_cons.mp member with rfl | below
  · exact ⟨[], rfl⟩
  · obtain ⟨date, inner, same⟩ := names_of_mem_placesOfClass below
    exact ⟨date :: inner, same⟩

def AllBelow (nodes : String) (places : List Place) : Prop :=
  ∀ place ∈ places, ∃ inner, place.names = nodes :: inner

theorem allBelow_placesOfClass (nodes : String) (entry : Entry) :
    AllBelow nodes (placesOfClass nodes entry) := fun _ member =>
  names_of_mem_cons_placesOfClass (List.mem_cons_of_mem _ member)

theorem AllBelow.nodes_eq {places : List Place} (below : AllBelow nodes places)
    {other date name : String} {entry : Entry} (member : .ofDate other date name entry ∈ places) :
    other = nodes := by
  obtain ⟨_, same⟩ := below _ member
  exact (List.cons.inj same).1

theorem placesOfDate_ascending
    (ordered : ∀ files, entry = .directory files → Ascending files) :
    (placesOfDate nodes date entry).Pairwise fun p q => p.names < q.names := by
  cases entry with
  | file size => exact List.Pairwise.nil
  | directory files =>
    refine List.pairwise_map.mpr ((ordered files rfl).imp fun {a b} less => ?_)
    simpa [List.cons_lt_cons_iff] using less

theorem placesOfClass_ascending
    (ordered : ∀ dates, entry = .directory dates → Throughout Ascending dates) :
    (placesOfClass nodes entry).Pairwise fun p q => p.names < q.names := by
  cases entry with
  | file size => exact List.Pairwise.nil
  | directory dates =>
    have below := ordered dates rfl
    refine List.pairwise_flatMap.mpr ⟨fun ⟨date, middle⟩ inDates => ?_, ?_⟩
    · refine List.pairwise_cons.mpr ⟨fun place member => ?_, placesOfDate_ascending ?_⟩
      · obtain ⟨name, same⟩ := names_of_mem_placesOfDate member
        simp [same]
      · intro files same
        exact (below.inside (same ▸ inDates)).here
    · refine below.here.imp fun {a b} less left inLeft right inRight => ?_
      obtain ⟨_, leftNames⟩ := names_of_mem_cons_placesOfDate inLeft
      obtain ⟨_, rightNames⟩ := names_of_mem_cons_placesOfDate inRight
      simp [leftNames, rightNames, List.cons_lt_cons_iff, less]

/-- Places stand in ascending order of the names that lead to them. -/
theorem places_ascending (ordered : Throughout Ascending entries) :
    (places entries).Pairwise fun p q => p.names < q.names := by
  refine List.pairwise_flatMap.mpr ⟨fun ⟨nodes, outer⟩ inEntries => ?_, ?_⟩
  · refine List.pairwise_cons.mpr ⟨fun place member => ?_, placesOfClass_ascending ?_⟩
    · obtain ⟨date, inner, same⟩ := names_of_mem_placesOfClass member
      simp [same]
    · intro dates same
      exact ordered.inside (same ▸ inEntries)
  · refine ordered.here.imp fun {a b} less left inLeft right inRight => ?_
    obtain ⟨_, leftNames⟩ := names_of_mem_cons_placesOfClass inLeft
    obtain ⟨_, rightNames⟩ := names_of_mem_cons_placesOfClass inRight
    simp [leftNames, rightNames, List.cons_lt_cons_iff, less]

theorem plain_of_mem_places (listing : Throughout IsListing entries) {place : Place}
    (member : place ∈ places entries) : ∀ name ∈ place.names, IsPlain name := by
  obtain ⟨⟨nodes, outer⟩, inEntries, below⟩ := List.mem_flatMap.mp member
  have first := listing.here.plain _ inEntries
  rcases List.mem_cons.mp below with rfl | below
  · simpa using first
  · cases outer with
    | file size => simp [placesOfClass] at below
    | directory dates =>
      have listing := listing.inside inEntries
      obtain ⟨⟨date, middle⟩, inDates, below⟩ := List.mem_flatMap.mp below
      have second := listing.here.plain _ inDates
      rcases List.mem_cons.mp below with rfl | below
      · simpa using And.intro first second
      · cases middle with
        | file size => simp [placesOfDate] at below
        | directory files =>
          obtain ⟨⟨name, inner⟩, inFiles, rfl⟩ := List.mem_map.mp below
          have third := (listing.inside inDates).here.plain _ inFiles
          simpa using And.intro first (And.intro second third)

theorem nodup_names (ordered : Throughout Ascending entries) :
    ((places entries).map Place.names).Nodup := by
  refine List.pairwise_map.mpr ((places_ascending ordered).imp fun {left right} less same => ?_)
  rw [same] at less
  exact List.lt_irrefl _ less

theorem eq_of_names (ordered : Throughout Ascending entries) {place other : Place}
    (member : place ∈ places entries) (inPlaces : other ∈ places entries)
    (same : place.names = other.names) : place = other :=
  List.inj_on_of_nodup_map (nodup_names ordered) member inPlaces same

end

namespace Place

theorem trail_foldl_join (root : Path) {names : List String}
    (plain : ∀ name ∈ names, IsPlain name) :
    (names.foldl Path.join root).trail = (names.map Component.name).reverse ++ root.trail := by
  induction names generalizing root with
  | nil => rfl
  | cons head rest ih =>
    rw [List.foldl_cons, ih (root.join head) fun name member =>
      plain name (List.mem_cons_of_mem _ member), Path.trail_join root (plain head List.mem_cons_self)]
    simp

theorem names_of_same_path {root : Path} {place other : Place}
    (plain : ∀ name ∈ place.names, IsPlain name) (otherPlain : ∀ name ∈ other.names, IsPlain name)
    (same : (place.path root).same (other.path root) = true) : place.names = other.names := by
  have trails := Path.same_iff.mp same
  rw [path, path, trail_foldl_join root plain, trail_foldl_join root otherPlain,
    List.append_left_inj, List.reverse_inj] at trails
  exact (List.map_inj_right fun _ _ => Component.name.inj).mp trails

theorem eq_of_same_path {root : Path} {entries : List (String × Entry)}
    (listing : Throughout IsListing entries) {place other : Place}
    (member : place ∈ places entries) (inPlaces : other ∈ places entries)
    (same : (place.path root).same (other.path root) = true) : place = other :=
  eq_of_names (listing.mono fun _ listed => listed.ascending) member inPlaces
    (names_of_same_path (plain_of_mem_places listing member)
      (plain_of_mem_places listing inPlaces) same)

end Place

namespace Catalog

def addPlace (root : Path) (files : ClassOutputs) (place : Place) : ClassOutputs :=
  match place, place.output? root with
  | .ofDate _ _ name _, some file => files.insertIn file.name.stripeCount file.name.stripeSize name file
  | _, _ => files

theorem addPlace_of_none {root : Path} {files : ClassOutputs} {place : Place}
    (none : place.output? root = none) : addPlace root files place = files := by
  unfold addPlace
  rw [none]
  split <;> simp_all

theorem addPlace_of_some {root : Path} {files : ClassOutputs} {nodes date name : String}
    {entry : Entry} {file : OutputFile}
    (found : (Place.ofDate nodes date name entry).output? root = some file) :
    addPlace root files (.ofDate nodes date name entry) =
      files.insertIn file.name.stripeCount file.name.stripeSize name file := by
  simp [addPlace, found]

theorem collect_recognizeClass (root : Path) (nodes : String) (dates : List (String × Entry)) :
    collect (recognizeClass (root.join nodes) dates) =
      (placesOfClass nodes (.directory dates)).foldl (addPlace root) .empty := by
  unfold collect recognizeClass placesOfClass
  rw [List.foldl_flatMap, List.foldl_flatMap]
  congr 1
  funext files ⟨date, entry⟩
  rw [List.foldl_cons, addPlace_of_none rfl]
  cases entry with
  | file size => rfl
  | directory entries =>
    simp only [recognizeDate, placesOfDate, List.foldl_map]
    congr 1
    funext files ⟨name, entry⟩
    cases entry with
    | directory nested => rfl
    | file size =>
      cases recognized : RunName.recognize name with
      | error fault => simp [recognizeEntry, recognized, Except.map, addPlace, Place.output?]
      | ok runName =>
        simp only [recognizeEntry, recognized, Except.map, addPlace, Place.output?,
          Place.path_ofDate]
        rfl

theorem anomalies_recognizeClass (root : Path) (nodes : String) (dates : List (String × Entry)) :
    (recognizeClass (root.join nodes) dates).filterMap anomaly? =
      (placesOfClass nodes (.directory dates)).filterMap (Place.anomaly? root) := by
  unfold recognizeClass placesOfClass
  rw [List.filterMap_flatMap, List.filterMap_flatMap]
  congr 1
  funext ⟨date, entry⟩
  cases entry with
  | file size => rfl
  | directory files =>
    simp only [recognizeDate, placesOfDate, List.filterMap_cons, Place.anomaly?, List.filterMap_map]
    congr 1
    funext ⟨name, entry⟩
    cases entry with
    | directory nested =>
      simp [recognizeEntry, Place.anomaly?, Place.path, anomaly?, Except.map]
    | file size =>
      cases recognized : RunName.recognize name <;>
        simp [recognizeEntry, Place.anomaly?, Place.path, recognized, anomaly?, Except.map]

theorem anomaliesOf_eq (root : Path) (entries : List (String × Entry)) :
    anomaliesOf root entries = (places entries).filterMap (Place.anomaly? root) := by
  unfold anomaliesOf places
  rw [List.filterMap_flatMap]
  congr 1
  funext ⟨nodes, entry⟩
  cases entry with
  | file size => rfl
  | directory dates =>
    rw [List.filterMap_cons]
    exact anomalies_recognizeClass root nodes dates

end Catalog

end Campaign
