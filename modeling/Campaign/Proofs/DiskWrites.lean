import Campaign.Disk
import Mathlib.Data.List.Basic

namespace Campaign

namespace Node

/-- A node by itself: of a directory only that it is one. -/
def face : Node → Node
  | .directory _ => .directory []
  | .file content => .file content
  | .link target => .link target

theorem isDirectory_face (node : Node) : node.face.isDirectory = node.isDirectory := by
  cases node <;> rfl

theorem face_eq_link_iff {node : Node} {target : String} :
    node.face = .link target ↔ node = .link target := by
  cases node <;> simp [face]

theorem get?_append (node : Node) (outer inner : Location) :
    node.get? (outer ++ inner) = (node.get? outer).bind (·.get? inner) := by
  induction outer generalizing node with
  | nil => rfl
  | cons name rest ih =>
    cases found : node.entries.lookup name with
    | none => simp [get?, found]
    | some child => simp [get?, found, ih]

theorem get?_concat (node : Node) (outer : Location) (name : String) :
    node.get? (outer ++ [name]) = (node.get? outer).bind (·.entries.lookup name) := by
  rw [get?_append]
  refine congrArg (node.get? outer).bind (funext fun inside => ?_)
  cases found : inside.entries.lookup name with
  | none => simp [get?, found]
  | some child => simp [get?, found]

theorem eq_directory_of_get? {node child : Node} {name : String} {inner : Location}
    (found : node.get? (name :: inner) = some child) : ∃ entries, node = .directory entries := by
  cases node with
  | directory entries => exact ⟨entries, rfl⟩
  | file content => cases found
  | link target => cases found

theorem get?_put_outer (added node : Node) (outer : Location) (name : String) (inner : Location) :
    ∃ entries, (put added node (outer ++ name :: inner)).get? outer = some (.directory entries) := by
  induction outer generalizing node with
  | nil => exact ⟨_, rfl⟩
  | cons first rest ih => simp [put, get?, lookup_insertPair_self, ih]

end Node

namespace Disk

def face? (disk : Disk) (location : Location) : Option Node := (disk.node? location).map Node.face

def Way.Stands (disk : Disk) : Way → Prop
  | [] => True
  | (name, node) :: outer =>
    disk.node? (Way.location ((name, node) :: outer)) = some node ∧
      (∀ target, node ≠ .link target) ∧ Stands disk outer

theorem location_cons (name : String) (node : Node) (way : Way) :
    Way.location ((name, node) :: way) = way.location ++ [name] := by
  simp [Way.location]

section

variable {disk : Disk} {way : Way} {name : String} {node : Node}

theorem Way.Stands.tail (stands : way.Stands disk) : Way.Stands disk way.tail := by
  cases way with
  | nil => exact stands
  | cons _ _ => exact stands.2.2

theorem node?_location (stands : way.Stands disk) :
    disk.node? way.location = some (disk.lastNode way) := by
  cases way with
  | nil => rfl
  | cons _ _ => exact stands.1

theorem node?_step (stands : way.Stands disk) (name : String) :
    disk.node? (way.location ++ [name]) = (disk.lastNode way).entries.lookup name := by
  rw [node?, Node.get?_concat]
  show (disk.node? way.location).bind _ = _
  rw [node?_location stands]
  rfl

theorem Way.Stands.cons (stands : way.Stands disk)
    (found : (disk.lastNode way).entries.lookup name = some node)
    (noLink : ∀ target, node ≠ .link target) : Way.Stands disk ((name, node) :: way) := by
  refine ⟨?_, noLink, stands⟩
  rw [location_cons, node?_step stands, found]

end

structure Names (disk : Disk) (aim : Aim) (way : Way) (piece : String) (rest : List String) :
    Prop where
  inside : (disk.lastNode way).isDirectory = true
  given : ¬ (piece = "" ∨ piece = ".")
  down : piece ≠ ".."
  plain : ¬ (aim = .file ∧ (!rest.isEmpty) = true ∧ rest.all String.isEmpty = true)
  short : ¬ nameLimit < piece.utf8ByteSize

/-- A path leads on from where a way ends to a place, through at most the given number of links. -/
inductive Leads (disk : Disk) (aim : Aim) : Nat → Way → List String → Location → Prop where
  | here {links : Nat} {way : Way}
    (suits : ¬ (aim = .file ∧ (disk.lastNode way).isDirectory = true)) :
    Leads disk aim links way [] way.location
  | idle {links : Nat} {way : Way} {piece : String} {rest : List String} {found : Location}
    (inside : (disk.lastNode way).isDirectory = true) (idle : piece = "" ∨ piece = ".")
    (leads : Leads disk aim links way rest found) : Leads disk aim links way (piece :: rest) found
  | up {links : Nat} {way : Way} {rest : List String} {found : Location}
    (inside : (disk.lastNode way).isDirectory = true)
    (leads : Leads disk aim links way.tail rest found) :
    Leads disk aim links way (".." :: rest) found
  | free {links : Nat} {way : Way} {piece : String} (names : Names disk aim way piece [])
    (absent : (disk.lastNode way).entries.lookup piece = none) (new : aim = .file) :
    Leads disk aim links way [piece] (way.location ++ [piece])
  | entry {links : Nat} {way : Way} {piece target : String} (names : Names disk aim way piece [])
    (present : (disk.lastNode way).entries.lookup piece = some (.link target))
    (entry : aim = .entry) : Leads disk aim links way [piece] (way.location ++ [piece])
  | link {links : Nat} {way : Way} {piece target : String} {rest : List String} {found : Location}
    (names : Names disk aim way piece rest)
    (present : (disk.lastNode way).entries.lookup piece = some (.link target))
    (through : ¬ (aim = .entry ∧ rest.isEmpty = true))
    (leads : Leads disk aim links (if isAbsolute target then [] else way)
      (piecesOf target ++ rest) found) :
    Leads disk aim (links + 1) way (piece :: rest) found
  | node {links : Nat} {way : Way} {piece : String} {node : Node} {rest : List String}
    {found : Location} (names : Names disk aim way piece rest)
    (present : (disk.lastNode way).entries.lookup piece = some node)
    (noLink : ∀ target, node ≠ .link target)
    (leads : Leads disk aim links ((piece, node) :: way) rest found) :
    Leads disk aim links way (piece :: rest) found

section

variable {disk : Disk} {aim : Aim} {way : Way} {piece : String} {rest : List String}
  {found : Location} {follow : Way → List String → Except SystemError Location}

theorem Names.walkWith_eq (names : Names disk aim way piece rest) :
    disk.walkWith follow aim way (piece :: rest) =
      match (disk.lastNode way).entries.lookup piece with
      | none =>
        if aim = .file ∧ rest.isEmpty then .ok (way.location ++ [piece]) else .error .noEntry
      | some (.link target) =>
        if aim = .entry ∧ rest.isEmpty then .ok (way.location ++ [piece])
        else follow (if isAbsolute target then [] else way) (piecesOf target ++ rest)
      | some node => disk.walkWith follow aim ((piece, node) :: way) rest := by
  rw [walkWith, names.inside, if_neg names.given, if_neg names.down, if_neg names.plain,
    if_neg names.short]
  rfl

def follower (disk : Disk) (aim : Aim) : Nat → Way → List String → Except SystemError Location
  | 0 => fun _ _ => .error .tooManyLinks
  | links + 1 => disk.walk aim links

theorem walk_eq (disk : Disk) (aim : Aim) (links : Nat) :
    disk.walk aim links = disk.walkWith (disk.follower aim links) aim := by
  cases links <;> rfl

theorem Leads.walk_eq_ok {links : Nat} {pieces : List String}
    (leads : Leads disk aim links way pieces found) :
    disk.walk aim links way pieces = .ok found := by
  induction leads with
  | here suits => rw [walk_eq, walkWith, if_neg suits]
  | idle inside idle _ ih =>
    rw [walk_eq] at ih ⊢
    rw [walkWith, inside, if_pos idle]
    exact ih
  | up inside _ ih =>
    rw [walk_eq] at ih ⊢
    rw [walkWith, inside, if_neg (by decide), if_pos rfl]
    exact ih
  | free names absent new =>
    rw [walk_eq, names.walkWith_eq, absent]
    exact if_pos ⟨new, rfl⟩
  | entry names present entry =>
    rw [walk_eq, names.walkWith_eq, present]
    exact if_pos ⟨entry, rfl⟩
  | link names present through _ ih =>
    rw [walk_eq, names.walkWith_eq, present]
    exact (if_neg through).trans ih
  | @node _ _ _ node _ _ names present noLink _ ih =>
    rw [walk_eq] at ih ⊢
    rw [names.walkWith_eq, present]
    cases node with
    | link target => exact absurd rfl (noLink target)
    | file content => exact ih
    | directory entries => exact ih

theorem leads_of_walkWith {links : Nat} {pieces : List String}
    (follows : ∀ way pieces found, disk.follower aim links way pieces = .ok found →
      ∃ fewer, links = fewer + 1 ∧ Leads disk aim fewer way pieces found)
    (walked : disk.walkWith (disk.follower aim links) aim way pieces = .ok found) :
    Leads disk aim links way pieces found := by
  induction pieces generalizing way with
  | nil =>
    rw [walkWith] at walked
    split at walked
    · cases walked
    · rename_i suits
      cases walked
      exact .here suits
  | cons piece rest ih =>
    cases inside : (disk.lastNode way).isDirectory with
    | false =>
      rw [walkWith, inside] at walked
      cases walked
    | true =>
      by_cases idle : piece = "" ∨ piece = "."
      · rw [walkWith, inside, if_pos idle] at walked
        exact .idle inside idle (ih walked)
      by_cases up : piece = ".."
      · subst up
        rw [walkWith, inside, if_neg idle, if_pos rfl] at walked
        exact .up inside (ih walked)
      by_cases blank : aim = .file ∧ (!rest.isEmpty) = true ∧ rest.all String.isEmpty = true
      · rw [walkWith, inside, if_neg idle, if_neg up, if_pos blank] at walked
        cases walked
      by_cases long : nameLimit < piece.utf8ByteSize
      · rw [walkWith, inside, if_neg idle, if_neg up, if_neg blank, if_pos long] at walked
        cases walked
      have names : Names disk aim way piece rest := ⟨inside, idle, up, blank, long⟩
      rw [names.walkWith_eq] at walked
      split at walked
      · rename_i absent
        split at walked
        · rename_i new
          cases walked
          obtain rfl := List.isEmpty_iff.mp new.2
          exact .free names absent new.1
        · cases walked
      · rename_i target present
        split at walked
        · rename_i entry
          cases walked
          obtain rfl := List.isEmpty_iff.mp entry.2
          exact .entry names present entry.1
        · rename_i through
          obtain ⟨fewer, rfl, leads⟩ := follows _ _ _ walked
          exact .link names present through leads
      · rename_i node noLink present
        exact .node names present noLink (ih walked)

theorem leads_of_walk {links : Nat} {pieces : List String}
    (walked : disk.walk aim links way pieces = .ok found) :
    Leads disk aim links way pieces found := by
  induction links generalizing way pieces found with
  | zero =>
    rw [walk_eq] at walked
    exact leads_of_walkWith (fun _ _ _ never => nomatch never) walked
  | succ links ih =>
    rw [walk_eq] at walked
    exact leads_of_walkWith (fun _ _ _ followed => ⟨links, rfl, ih followed⟩) walked

theorem walk_eq_ok_iff {links : Nat} {pieces : List String} :
    disk.walk aim links way pieces = .ok found ↔ Leads disk aim links way pieces found :=
  ⟨leads_of_walk, Leads.walk_eq_ok⟩

end

/-- Everything stands alike on two disks but at one place, where either has a file at most. -/
structure SameBut (place : Location) (disk other : Disk) : Prop where
  here : other.here = disk.here
  elsewhere : ∀ location ≠ place, other.face? location = disk.face? location
  file : ∀ node, disk.node? place = some node → ∃ content, node = .file content
  otherFile : ∀ node, other.node? place = some node → ∃ content, node = .file content

/-- What a path is followed for on the second of two disks, when it leads to a place on the first
one: the same, elsewhere, or to find the file that it has been followed for to write there. -/
def Follows (place : Location) (other : Disk) (aim otherAim : Aim) (found : Location) : Prop :=
  (otherAim = aim ∧ found ≠ place) ∨
    (aim = .file ∧ otherAim = .target ∧ found = place ∧ (other.node? place).isSome = true)

section

variable {place found : Location} {disk other : Disk} {aim otherAim : Aim} {way otherWay : Way}
  {piece : String} {rest : List String}

theorem Follows.file (follows : Follows place other aim otherAim found) (file : otherAim = .file) :
    aim = .file := by
  rcases follows with ⟨same, _⟩ | ⟨_, target, _⟩
  · exact same ▸ file
  · rw [file] at target
    cases target

theorem Follows.entry (follows : Follows place other aim otherAim found)
    (entry : otherAim = .entry) : aim = .entry := by
  rcases follows with ⟨same, _⟩ | ⟨_, target, _⟩
  · exact same ▸ entry
  · rw [entry] at target
    cases target

theorem SameBut.symm (same : SameBut place disk other) : SameBut place other disk where
  here := same.here.symm
  elsewhere location different := (same.elsewhere location different).symm
  file := same.otherFile
  otherFile := same.file

theorem location_congr (names : otherWay.map (·.1) = way.map (·.1)) :
    otherWay.location = way.location := by
  rw [Way.location, names, Way.location]

theorem SameBut.isDirectory_lastNode (same : SameBut place disk other) (stands : way.Stands disk)
    (otherStands : otherWay.Stands other) (names : otherWay.map (·.1) = way.map (·.1)) :
    (other.lastNode otherWay).isDirectory = (disk.lastNode way).isDirectory := by
  have here := node?_location stands
  have there := node?_location otherStands
  rw [location_congr names] at there
  by_cases atPlace : way.location = place
  · rw [atPlace] at here there
    obtain ⟨_, file⟩ := same.file _ here
    obtain ⟨_, otherFile⟩ := same.otherFile _ there
    rw [file, otherFile]
    rfl
  · have faces := same.elsewhere _ atPlace
    rw [face?, face?, here, there] at faces
    rw [← Node.isDirectory_face, Option.some.inj faces, Node.isDirectory_face]

theorem SameBut.names (same : SameBut place disk other) (stands : way.Stands disk)
    (otherStands : otherWay.Stands other) (named : otherWay.map (·.1) = way.map (·.1))
    (follows : Follows place other aim otherAim found) (names : Names disk aim way piece rest) :
    Names other otherAim otherWay piece rest where
  inside := (same.isDirectory_lastNode stands otherStands named).trans names.inside
  given := names.given
  down := names.down
  plain blank := names.plain ⟨follows.file blank.1, blank.2⟩
  short := names.short

theorem SameBut.lookup (same : SameBut place disk other) (stands : way.Stands disk)
    (otherStands : otherWay.Stands other) (names : otherWay.map (·.1) = way.map (·.1))
    (elsewhere : way.location ++ [piece] ≠ place) :
    ((other.lastNode otherWay).entries.lookup piece).map Node.face =
      ((disk.lastNode way).entries.lookup piece).map Node.face := by
  have faces := same.elsewhere _ elsewhere
  rw [face?, face?, node?_step stands, ← location_congr names, node?_step otherStands] at faces
  exact faces

theorem Leads.of_file {links : Nat} {pieces : List String}
    (leads : Leads disk aim links way pieces found)
    (file : (disk.lastNode way).isDirectory = false) : pieces = [] ∧ found = way.location := by
  have never : ∀ {P : Prop}, (disk.lastNode way).isDirectory = true → P := by
    intro P inside
    rw [file] at inside
    cases inside
  cases leads with
  | here => exact ⟨rfl, rfl⟩
  | idle inside => exact never inside
  | up inside => exact never inside
  | free names => exact never names.inside
  | entry names => exact never names.inside
  | link names => exact never names.inside
  | node names => exact never names.inside

theorem SameBut.lookup_link (same : SameBut place disk other) (stands : way.Stands disk)
    (otherStands : otherWay.Stands other) (names : otherWay.map (·.1) = way.map (·.1))
    {target : String} (present : (disk.lastNode way).entries.lookup piece = some (.link target)) :
    way.location ++ [piece] ≠ place ∧
      (other.lastNode otherWay).entries.lookup piece = some (.link target) := by
  have elsewhere : way.location ++ [piece] ≠ place := by
    intro atPlace
    rw [← node?_step stands, atPlace] at present
    obtain ⟨_, file⟩ := same.file _ present
    cases file
  have faces := same.lookup stands otherStands names elsewhere
  rw [present] at faces
  obtain ⟨node, found, face⟩ := Option.map_eq_some_iff.mp faces
  rw [Node.face_eq_link_iff.mp face] at found
  exact ⟨elsewhere, found⟩

theorem SameBut.lookup_node (same : SameBut place disk other) (stands : way.Stands disk)
    (otherStands : otherWay.Stands other) (names : otherWay.map (·.1) = way.map (·.1)) {node : Node}
    (present : (disk.lastNode way).entries.lookup piece = some node)
    (noLink : ∀ target, node ≠ .link target) (elsewhere : way.location ++ [piece] ≠ place) :
    ∃ again, (other.lastNode otherWay).entries.lookup piece = some again ∧
      ∀ target, again ≠ .link target := by
  have faces := same.lookup stands otherStands names elsewhere
  rw [present] at faces
  obtain ⟨again, found, face⟩ := Option.map_eq_some_iff.mp faces
  refine ⟨again, found, fun target link => ?_⟩
  rw [Node.face_eq_link_iff.mpr link] at face
  exact noLink target (Node.face_eq_link_iff.mp face.symm)

theorem SameBut.leads_file (same : SameBut place disk other) (stands : way.Stands other)
    (names : Names other .target way piece []) (atPlace : way.location ++ [piece] = place)
    (written : (other.node? place).isSome = true) (links : Nat) :
    Leads other .target links way [piece] (way.location ++ [piece]) := by
  obtain ⟨node, present⟩ := Option.isSome_iff_exists.mp written
  obtain ⟨content, rfl⟩ := same.otherFile node present
  rw [← atPlace, node?_step stands] at present
  rw [← location_cons piece (.file content)]
  exact .node names present nofun (.here nofun)

theorem SameBut.leads (same : SameBut place disk other) {links : Nat} {pieces : List String}
    (leads : Leads disk aim links way pieces found)
    (follows : Follows place other aim otherAim found) (stands : way.Stands disk)
    (otherStands : otherWay.Stands other) (named : otherWay.map (·.1) = way.map (·.1)) :
    Leads other otherAim links otherWay pieces found := by
  induction leads generalizing otherWay with
  | @here _ way suits =>
    rw [← location_congr named]
    apply Leads.here
    intro both
    rw [same.isDirectory_lastNode stands otherStands named] at both
    exact suits ⟨follows.file both.1, both.2⟩
  | idle inside idle _ ih =>
    rw [← same.isDirectory_lastNode stands otherStands named] at inside
    exact .idle inside idle (ih follows stands otherStands named)
  | @up _ way _ _ inside _ ih =>
    rw [← same.isDirectory_lastNode stands otherStands named] at inside
    have outer : otherWay.tail.map (·.1) = way.tail.map (·.1) := by
      rw [List.map_tail, named, List.map_tail]
    exact .up inside (ih follows stands.tail otherStands.tail outer)
  | @free _ way piece names absent new =>
    have again := same.names stands otherStands named follows names
    have location := location_congr named
    rw [← location]
    rcases follows with ⟨rfl, elsewhere⟩ | ⟨_, rfl, atPlace, written⟩
    · have faces := same.lookup stands otherStands named elsewhere
      rw [absent] at faces
      exact .free again (Option.map_eq_none_iff.mp faces) new
    · exact same.leads_file otherStands again (location ▸ atPlace) written _
  | @entry _ way piece target names present entry =>
    have again := same.names stands otherStands named follows names
    have presentAgain := (same.lookup_link stands otherStands named present).2
    rw [← location_congr named]
    rcases follows with ⟨rfl, _⟩ | ⟨file, _⟩
    · exact .entry again presentAgain entry
    · rw [entry] at file
      cases file
  | @link _ way piece target rest found names present through _ ih =>
    have again := same.names stands otherStands named follows names
    have presentAgain := (same.lookup_link stands otherStands named present).2
    refine .link again presentAgain (fun both => through ⟨follows.entry both.1, both.2⟩) ?_
    split
    · rename_i absolute
      rw [if_pos absolute] at ih
      exact ih follows trivial trivial rfl
    · rename_i relative
      rw [if_neg relative] at ih
      exact ih follows stands otherStands named
  | @node _ way piece node rest found names present noLink leads ih =>
    have again := same.names stands otherStands named follows names
    have onWay := stands.cons present noLink
    by_cases atPlace : way.location ++ [piece] = place
    · -- The way ends at the file that is there, so it is the one that was followed to write.
      have there := node?_step stands piece
      rw [atPlace, present] at there
      obtain ⟨content, rfl⟩ := same.file node there
      obtain ⟨rfl, rfl⟩ := leads.of_file rfl
      have location := location_congr named
      rw [location_cons] at follows ⊢
      rcases follows with ⟨_, elsewhere⟩ | ⟨_, rfl, _, written⟩
      · exact absurd atPlace elsewhere
      · rw [← location]
        exact same.leads_file otherStands again (location ▸ atPlace) written _
    · obtain ⟨other, presentAgain, noLinkAgain⟩ :=
        same.lookup_node stands otherStands named present noLink atPlace
      exact .node again presentAgain noLinkAgain
        (ih follows onWay (otherStands.cons presentAgain noLinkAgain)
          (congrArg (piece :: ·) named))

theorem SameBut.locate (same : SameBut place disk other) {text : String}
    (located : disk.locate aim text = .ok found) (follows : Follows place other aim otherAim found) :
    other.locate otherAim text = .ok found := by
  unfold Disk.locate at located ⊢
  split at located
  · cases located
  · rename_i given
    split at located
    · cases located
    · rename_i short
      rw [if_neg given, if_neg short, same.here, walk_eq_ok_iff]
      exact same.leads (leads_of_walk located) follows trivial trivial rfl

/-- A place for a file to write: it lies in directories, and if anything is there it is a file. -/
structure Takes (disk : Disk) (place : Location) : Prop where
  file : ∀ node, disk.node? place = some node → ∃ content, node = .file content
  outer : ∀ outer name inner, outer ++ name :: inner = place →
    ∃ entries, disk.node? outer = some (.directory entries)

theorem exists_directory {outer inner : Location} {name : String} {node : Node}
    (found : disk.node? (outer ++ name :: inner) = some node) :
    ∃ entries, disk.node? outer = some (.directory entries) := by
  rw [node?, Node.get?_append] at found
  obtain ⟨above, there, below⟩ := Option.bind_eq_some_iff.mp found
  obtain ⟨entries, rfl⟩ := Node.eq_directory_of_get? below
  exact ⟨entries, there⟩

theorem node?_of_isDirectory (stands : way.Stands disk)
    (inside : (disk.lastNode way).isDirectory = true) :
    ∃ entries, disk.node? way.location = some (.directory entries) := by
  rw [node?_location stands]
  cases last : disk.lastNode way with
  | directory entries => exact ⟨entries, rfl⟩
  | file content =>
    rw [last] at inside
    cases inside
  | link target =>
    rw [last] at inside
    cases inside

theorem Leads.takes {links : Nat} {pieces : List String}
    (leads : Leads disk .file links way pieces place) (top : disk.top.isDirectory = true)
    (stands : way.Stands disk) : Takes disk place := by
  induction leads with
  | @here _ way suits =>
    cases way with
    | nil => exact absurd ⟨rfl, top⟩ suits
    | cons last outer =>
      obtain ⟨name, node⟩ := last
      have there := node?_location stands
      refine ⟨fun node found => ?_, fun outer name inner cut => ?_⟩
      · rw [there] at found
        obtain rfl := Option.some.inj found
        cases node with
        | file content => exact ⟨content, rfl⟩
        | link target => exact absurd rfl (stands.2.1 target)
        | directory entries => exact absurd ⟨rfl, rfl⟩ suits
      · rw [← cut] at there
        exact exists_directory there
  | idle _ _ _ ih => exact ih stands
  | up _ _ ih => exact ih stands.tail
  | @free _ way piece names absent _ =>
    have there := node?_step stands piece
    rw [absent] at there
    refine ⟨fun node found => ?_, fun outer name inner cut => ?_⟩
    · rw [there] at found
      cases found
    · rcases List.eq_nil_or_concat inner with rfl | ⟨front, last, rfl⟩
      · obtain ⟨rfl, _⟩ := List.append_inj' cut rfl
        exact node?_of_isDirectory stands names.inside
      · have parts : (outer ++ name :: front) ++ [last] = way.location ++ [piece] := by
          simpa using cut
        have onWay := node?_location stands
        rw [← (List.append_inj' parts rfl).1] at onWay
        exact exists_directory onWay
  | entry _ _ entry => cases entry
  | link _ _ _ _ ih =>
    apply ih
    split
    · trivial
    · exact stands
  | node _ present noLink _ ih => exact ih (stands.cons present noLink)

theorem Leads.inside {links : Nat} (leads : Leads disk aim links way (piece :: rest) found) :
    (disk.lastNode way).isDirectory = true := by
  cases leads with
  | idle inside => exact inside
  | up inside => exact inside
  | free names => exact names.inside
  | entry names => exact names.inside
  | link names => exact names.inside
  | node names => exact names.inside

theorem piecesFrom_ne_nil (base : Location) (text : String) : piecesFrom base text ≠ [] := by
  have given : piecesOf text ≠ [] := by
    simp [piecesOf, List.splitOn_ne_nil]
  unfold piecesFrom
  split
  · exact given
  · exact fun none => given (List.append_eq_nil_iff.mp none).2

theorem takes_of_locate {text : String} (located : disk.locate .file text = .ok place) :
    Takes disk place := by
  unfold Disk.locate at located
  split at located
  · cases located
  · split at located
    · cases located
    · have leads := leads_of_walk located
      obtain ⟨piece, rest, cut⟩ :=
        List.exists_cons_of_ne_nil (piecesFrom_ne_nil disk.here text)
      rw [cut] at leads
      exact leads.takes leads.inside trivial

theorem face?_below {name : String} {inner : Location}
    (file : ∀ node, disk.node? place = some node → ∃ content, node = .file content) :
    disk.face? (place ++ name :: inner) = none := by
  cases found : disk.node? (place ++ name :: inner) with
  | none => rw [face?, found, Option.map_none]
  | some node =>
    obtain ⟨entries, directory⟩ := exists_directory found
    obtain ⟨_, same⟩ := file _ directory
    cases same

theorem Takes.sameBut_put (takes : Takes disk place) (content : ByteArray) :
    SameBut place disk (disk.put place (.file content)) := by
  have written : (disk.put place (.file content)).node? place = some (.file content) :=
    Node.get?_put_self _ _ _
  have otherFile : ∀ node, (disk.put place (.file content)).node? place = some node →
      ∃ content, node = .file content := by
    intro node found
    rw [written] at found
    exact ⟨content, (Option.some.inj found).symm⟩
  refine ⟨rfl, fun location different => ?_, takes.file, otherFile⟩
  by_cases below : place <+: location
  · obtain ⟨inner, rfl⟩ := below
    cases inner with
    | nil => exact absurd (List.append_nil place) different
    | cons name inner => rw [face?_below otherFile, face?_below takes.file]
  by_cases above : location <+: place
  · obtain ⟨inner, rfl⟩ := above
    cases inner with
    | nil => exact absurd (List.append_nil location).symm different
    | cons name inner =>
      obtain ⟨entries, before⟩ := takes.outer location name inner rfl
      obtain ⟨changed, after⟩ := Node.get?_put_outer (.file content) disk.top location name inner
      rw [face?, face?, before, node?, Disk.put, after]
      rfl
  · exact congrArg (Option.map Node.face) (Node.get?_put_of_not_prefix _ _ below above)

/-- A file has been written under a path: the path leads to the file, and apart from its place
everything stands where it stood and all paths lead where they led. -/
structure Writes (before after : Disk) (path : Path) (content : ByteArray) : Prop where
  holds : after.nodeAt path = .ok (.file content)
  elsewhere : ∃ place, before.locate .file path.text = .ok place ∧
    (∀ other ≠ place, after.face? other = before.face? other) ∧
    ∀ text, ∀ other ≠ place,
      after.locate .target text = .ok other ↔ before.locate .target text = .ok other

theorem nodeAt_eq {path : Path} {node : Node} (located : disk.locate .target path.text = .ok found)
    (stands : disk.node? found = some node) : disk.nodeAt path = .ok node := by
  rw [nodeAt, located]
  dsimp only [bind, Except.bind]
  rw [stands]
  rfl

theorem writes_put {path : Path} (located : disk.locate .file path.text = .ok place)
    (content : ByteArray) : Writes disk (disk.put place (.file content)) path content := by
  have same := (takes_of_locate located).sameBut_put content
  have written : (disk.put place (.file content)).node? place = some (.file content) :=
    Node.get?_put_self _ _ _
  refine ⟨?_, place, located, same.elsewhere, fun text other different => ?_⟩
  · apply nodeAt_eq (same.locate located (Or.inr ⟨rfl, rfl, rfl, ?_⟩)) written
    rw [written]
    rfl
  · constructor
    · intro after
      exact same.symm.locate after (Or.inl ⟨rfl, different⟩)
    · intro before
      exact same.locate before (Or.inl ⟨rfl, different⟩)

end

end Disk

end Campaign
