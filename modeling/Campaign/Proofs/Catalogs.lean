import Campaign.Proofs.Places

namespace Campaign.Catalog

def outputAt? (root : Path) (count : Nat) (size name : String) (place : Place) :
    Option OutputFile :=
  match place with
  | .ofDate _ _ other _ =>
    if other = name then (place.output? root).filter fun file =>
      file.name.stripeCount = count && file.name.stripeSize = size
    else none
  | _ => none

theorem outputAt?_eq_some_iff {root : Path} {count : Nat} {size name : String} {place : Place}
    {file : OutputFile} :
    outputAt? root count size name place = some file ↔
      (∃ nodes date, place = .ofDate nodes date name (.file file.size)) ∧
        RunName.recognize name = .ok file.name ∧ file.path = place.path root ∧
        file.name.stripeCount = count ∧ file.name.stripeSize = size := by
  constructor
  · intro found
    unfold outputAt? at found
    split at found
    · rename_i nodes date other entry
      split at found
      · rename_i same
        subst same
        obtain ⟨output, keys⟩ := Option.filter_eq_some_iff.mp found
        obtain ⟨_, _, _, place, recognized, path⟩ := Place.output?_eq_some_iff.mp output
        cases place
        simp only [Bool.and_eq_true, decide_eq_true_eq] at keys
        exact ⟨⟨nodes, date, rfl⟩, recognized, path, keys.1, keys.2⟩
      · cases found
    · cases found
  · intro given
    obtain ⟨⟨nodes, date, rfl⟩, recognized, path, rfl, rfl⟩ := given
    have output := Place.output?_eq_some_iff.mpr ⟨nodes, date, name, rfl, recognized, path⟩
    simp [outputAt?, output]

theorem getIn?_addPlace (root : Path) (files : ClassOutputs) (place : Place) (count : Nat)
    (size name : String) :
    (addPlace root files place).getIn? count size name =
      (outputAt? root count size name place).or (files.getIn? count size name) := by
  cases found : place.output? root with
  | none =>
    have nothing : outputAt? root count size name place = none := by
      unfold outputAt?
      split <;> simp [found]
    rw [addPlace_of_none found, nothing, Option.none_or]
  | some file =>
    obtain ⟨nodes, date, other, rfl, recognized, path⟩ := Place.output?_eq_some_iff.mp found
    rw [addPlace_of_some found, Table.getIn?_insertIn]
    by_cases keys : count = file.name.stripeCount ∧ size = file.name.stripeSize ∧ name = other
    · obtain ⟨rfl, rfl, rfl⟩ := keys
      have hit := outputAt?_eq_some_iff.mpr ⟨⟨nodes, date, rfl⟩, recognized, path, rfl, rfl⟩
      rw [if_pos ⟨rfl, rfl, rfl⟩, hit, Option.some_or]
    · have nothing : outputAt? root count size name
          (.ofDate nodes date other (.file file.size)) = none := by
        rw [Option.eq_none_iff_forall_ne_some]
        intro given hit
        obtain ⟨⟨_, _, same⟩, recognized', _, counts, sizes⟩ := outputAt?_eq_some_iff.mp hit
        obtain ⟨_, _, rfl, _⟩ := Place.ofDate.inj same
        have names : given.name = file.name := Except.ok.inj (recognized'.symm.trans recognized)
        exact keys ⟨by rw [← counts, names], by rw [← sizes, names], rfl⟩
      rw [if_neg keys, nothing, Option.none_or]

/-- A later place takes precedence over an earlier one. -/
theorem getIn?_foldl_addPlace (root : Path) (files : ClassOutputs) (places : List Place)
    (count : Nat) (size name : String) :
    (places.foldl (addPlace root) files).getIn? count size name =
      (places.reverse.findSome? (outputAt? root count size name)).or
        (files.getIn? count size name) := by
  induction places generalizing files with
  | nil => rfl
  | cons place rest ih =>
    rw [List.foldl_cons, ih, getIn?_addPlace, List.reverse_cons, List.findSome?_append,
      Option.or_assoc]
    simp

theorem collected_eq_some_iff {root : Path} {places : List Place} {nodes : String}
    (ascending : places.Pairwise fun p q => p.names < q.names)
    (below : AllBelow nodes places) {count : Nat} {size name : String} {file : OutputFile} :
    Table.getIn? (places.foldl (addPlace root) .empty) count size name = some file ↔
      ∃ date, .ofDate nodes date name (.file file.size) ∈ places ∧
        RunName.recognize name = .ok file.name ∧
        file.path = Place.path root (.ofDate nodes date name (.file file.size)) ∧
        file.name.stripeCount = count ∧ file.name.stripeSize = size ∧
        ∀ later other, .ofDate nodes later name (.file other) ∈ places → ¬ date < later := by
  have start : Table.getIn? (Table.empty : ClassOutputs) count size name = none := rfl
  rw [getIn?_foldl_addPlace, start, Option.or_none, List.findSome?_eq_some_iff]
  constructor
  · intro given
    obtain ⟨after, place, before, split, hit, missed⟩ := given
    obtain ⟨⟨nodes', date, rfl⟩, recognized, path, counts, sizes⟩ := outputAt?_eq_some_iff.mp hit
    have split : places = before.reverse ++ .ofDate nodes' date name (.file file.size) ::
        after.reverse := by
      have turned := congrArg List.reverse split
      simpa using turned
    have member : .ofDate nodes' date name (.file file.size) ∈ places := by simp [split]
    obtain rfl := below.nodes_eq member
    -- The search runs from the end, so a file of a later date would have been found first.
    refine ⟨date, member, recognized, path, counts, sizes, fun later other inPlaces less => ?_⟩
    rw [split] at inPlaces ascending
    rcases List.mem_append.mp inPlaces with inBefore | notBefore
    · have order := (List.pairwise_append.mp ascending).2.2 _ inBefore _ List.mem_cons_self
      exact String.lt_irrefl _ (String.lt_trans less (Place.names_ofDate_lt_iff.mp order))
    · rcases List.mem_cons.mp notBefore with same | inAfter
      · obtain ⟨_, rfl, _⟩ := Place.ofDate.inj same
        exact String.lt_irrefl _ less
      · have miss := missed _ (List.mem_reverse.mp inAfter)
        let newer : OutputFile :=
          { size := other, path := Place.path root (.ofDate nodes' later name (.file other)),
            name := file.name }
        have hit : outputAt? root count size name (.ofDate nodes' later name (.file newer.size)) =
            some newer := by
          apply outputAt?_eq_some_iff.mpr
          refine ⟨⟨nodes', later, rfl⟩, recognized, ?_, counts, sizes⟩
          dsimp only [newer]
        exact absurd (miss.symm.trans hit) nofun
  · intro given
    obtain ⟨date, member, recognized, path, counts, sizes, latest⟩ := given
    obtain ⟨before, after, split⟩ := List.append_of_mem member
    refine ⟨after.reverse, _, before.reverse, by simp [split],
      outputAt?_eq_some_iff.mpr ⟨⟨nodes, date, rfl⟩, recognized, path, counts, sizes⟩, ?_⟩
    intro place inAfter
    rw [List.mem_reverse] at inAfter
    rw [Option.eq_none_iff_forall_ne_some]
    intro newer hit
    obtain ⟨⟨nodes', later, rfl⟩, _⟩ := outputAt?_eq_some_iff.mp hit
    have inPlaces : .ofDate nodes' later name (.file newer.size) ∈ places := by
      simp [split, inAfter]
    obtain rfl := below.nodes_eq inPlaces
    rw [split] at ascending
    have order := (List.pairwise_cons.mp (List.pairwise_append.mp ascending).2.1).1 _ inAfter
    exact latest later newer.size inPlaces (Place.names_ofDate_lt_iff.mp order)

def file? (catalog : Catalog) (nodes : String) (count : Nat) (size name : String) :
    Option OutputFile :=
  (catalog.files? nodes count size).bind fun files => files.get? name

theorem file?_eq (catalog : Catalog) (nodes : String) (count : Nat) (size name : String) :
    catalog.file? nodes count size name =
      (catalog.classes.get? nodes).bind fun counts => counts.getIn? count size name := by
  unfold file? files? Table.getIn?
  cases catalog.classes.get? nodes <;> rfl

/-- The files of a cell; none where the catalog lacks one of its levels. -/
def filesOf (catalog : Catalog) (cell : Cell) : CellOutputs :=
  match catalog.outputs cell with
  | .ok outputs => outputs
  | .error _ => .empty

theorem get?_filesOf (catalog : Catalog) (cell : Cell) (name : String) :
    (catalog.filesOf cell).get? name =
      catalog.file? cell.nodes.label cell.stripes.count cell.size.label name := by
  unfold filesOf outputs file? files?
  cases first : catalog.classes.get? cell.nodes.label with
  | none => rfl
  | some counts =>
    cases second : counts.get? cell.stripes.count with
    | none => simp [second]
    | some sizes => cases third : sizes.get? cell.size.label <;> simp [second, third]

section

variable {root : Path} {entries : List (String × Entry)} {nodes : String}

theorem pairs_classes_ofEntries (root : Path) (ascending : Ascending entries) :
    (ofEntries root entries).classes.pairs = entries.filterMap fun (nodes, entry) =>
      match entry with
      | .file _ => none
      | .directory dates => some (nodes, collect (recognizeClass (root.join nodes) dates)) := by
  refine Table.pairs_ofList (List.Pairwise.filterMap _ ?_ ascending)
  intro ⟨nodes, entry⟩ ⟨nodes', entry'⟩ less left inLeft right inRight
  cases entry <;> cases entry' <;> simp_all
  subst inLeft inRight
  exact less

theorem get?_classes_eq_some_iff (ascending : Ascending entries) {counts : ClassOutputs} :
    (ofEntries root entries).classes.get? nodes = some counts ↔
      ∃ dates, (nodes, Entry.directory dates) ∈ entries ∧
        counts = (placesOfClass nodes (.directory dates)).foldl (addPlace root) .empty := by
  rw [Table.get?_eq_some_iff, pairs_classes_ofEntries root ascending, List.mem_filterMap]
  constructor
  · intro given
    obtain ⟨⟨nodes', entry⟩, inEntries, same⟩ := given
    cases entry with
    | file size => cases same
    | directory dates =>
      cases same
      exact ⟨dates, inEntries, collect_recognizeClass root nodes dates⟩
  · intro given
    obtain ⟨dates, inEntries, rfl⟩ := given
    exact ⟨_, inEntries, congrArg (fun files => some (nodes, files))
      (collect_recognizeClass root nodes dates)⟩

theorem ofDate_mem_placesOfClass (ascending : Ascending entries) {dates : List (String × Entry)}
    (inEntries : (nodes, Entry.directory dates) ∈ entries) {date name : String} {entry : Entry} :
    .ofDate nodes date name entry ∈ placesOfClass nodes (.directory dates) ↔
      .ofDate nodes date name entry ∈ places entries := by
  constructor
  · intro member
    exact List.mem_flatMap.mpr ⟨_, inEntries, List.mem_cons_of_mem _ member⟩
  · intro member
    obtain ⟨⟨nodes', outer⟩, inEntries', below⟩ := List.mem_flatMap.mp member
    have below : .ofDate nodes date name entry ∈ placesOfClass nodes' outer := by simpa using below
    obtain rfl := (allBelow_placesOfClass nodes' outer).nodes_eq below
    rwa [ascending.value_unique inEntries inEntries']

/-- A catalog holds an output file exactly if none of its name stands under a later date. -/
theorem file?_eq_some_iff (ordered : Throughout Ascending entries) {count : Nat}
    {size name : String} {file : OutputFile} :
    (ofEntries root entries).file? nodes count size name = some file ↔
      ∃ date, .ofDate nodes date name (.file file.size) ∈ places entries ∧
        RunName.recognize name = .ok file.name ∧
        file.path = Place.path root (.ofDate nodes date name (.file file.size)) ∧
        file.name.stripeCount = count ∧ file.name.stripeSize = size ∧
        ∀ later other, .ofDate nodes later name (.file other) ∈ places entries → ¬ date < later := by
  have ascending : ∀ dates, (nodes, Entry.directory dates) ∈ entries →
      (placesOfClass nodes (.directory dates)).Pairwise fun p q => p.names < q.names := by
    intro dates inEntries
    exact placesOfClass_ascending fun _ same => Entry.directory.inj same ▸ ordered.inside inEntries
  rw [file?_eq, Option.bind_eq_some_iff]
  constructor
  · intro given
    obtain ⟨counts, found, held⟩ := given
    obtain ⟨dates, inEntries, rfl⟩ := (get?_classes_eq_some_iff ordered.here).mp found
    rw [collected_eq_some_iff (ascending dates inEntries) (allBelow_placesOfClass nodes _)] at held
    simpa only [ofDate_mem_placesOfClass ordered.here inEntries] using held
  · intro given
    obtain ⟨date, held⟩ := given
    obtain ⟨dates, _, inEntries, _⟩ := ofDate_mem_places.mp held.1
    refine ⟨_, (get?_classes_eq_some_iff ordered.here).mpr ⟨dates, inEntries, rfl⟩, ?_⟩
    rw [collected_eq_some_iff (ascending dates inEntries) (allBelow_placesOfClass nodes _)]
    simp only [ofDate_mem_placesOfClass ordered.here inEntries]
    exact ⟨date, held⟩

end

end Campaign.Catalog
