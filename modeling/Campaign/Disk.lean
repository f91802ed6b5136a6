import Campaign.FileSystem

namespace Campaign

inductive Node where
  | file (content : ByteArray)
  | link (target : String)
  /-- A directory with its entries in ascending order of name. -/
  | directory (entries : List (String × Node))

instance : Inhabited Node := ⟨.directory []⟩

abbrev Location := List String

namespace Node

def entries : Node → List (String × Node)
  | .directory entries => entries
  | _ => []

@[simp] theorem entries_directory (entries : List (String × Node)) :
    (directory entries).entries = entries := rfl

def isDirectory : Node → Bool
  | .directory _ => true
  | _ => false

def get? : Node → Location → Option Node
  | node, [] => some node
  | node, name :: inner => (node.entries.lookup name).bind (·.get? inner)

/-- The node with another one put at a place below it, and directories on the way where there are
none. -/
def put (added : Node) : Node → Location → Node
  | _, [] => added
  | node, name :: inner =>
    .directory (insertPair name
      (put added ((node.entries.lookup name).getD (.directory [])) inner) node.entries)

theorem get?_put_self (added node : Node) (location : Location) :
    (put added node location).get? location = some added := by
  induction location generalizing node with
  | nil => rfl
  | cons name inner ih => simp [put, get?, lookup_insertPair_self, ih]

theorem get?_put_of_not_prefix (added node : Node) {location other : Location}
    (outside : ¬ location <+: other) (notAbove : ¬ other <+: location) :
    (put added node location).get? other = node.get? other := by
  induction location generalizing node other with
  | nil => exact absurd List.nil_prefix outside
  | cons name inner ih =>
    cases other with
    | nil => exact absurd List.nil_prefix notAbove
    | cons first rest =>
      by_cases same : first = name
      · subst same
        have outside : ¬ inner <+: rest := fun given =>
          outside (List.cons_prefix_cons.mpr ⟨rfl, given⟩)
        have notAbove : ¬ rest <+: inner := fun given =>
          notAbove (List.cons_prefix_cons.mpr ⟨rfl, given⟩)
        cases found : node.entries.lookup first with
        | some child =>
          simp [put, get?, lookup_insertPair_self, found, ih child outside notAbove]
        | none =>
          have missing : (Node.directory []).get? rest = none := by
            cases rest with
            | nil => exact absurd List.nil_prefix notAbove
            | cons _ _ => rfl
          simp [put, get?, lookup_insertPair_self, found, ih _ outside notAbove, missing]
      · simp [put, get?, lookup_insertPair_of_ne same]

end Node

/-- A disk from its top directory on, and the working directory that relative paths begin from. -/
structure Disk where
  top : Node
  here : Location

namespace Disk

def nameLimit : Nat := 255

def pathLimit : Nat := 4096

def linkLimit : Nat := 40

def node? (disk : Disk) (location : Location) : Option Node := disk.top.get? location

def put (disk : Disk) (location : Location) (node : Node) : Disk :=
  { disk with top := node.put disk.top location }

def putDirectories (disk : Disk) (location : Location) : Disk :=
  if (disk.node? location).isSome then disk else disk.put location (.directory [])

def blank (here : Location) : Disk :=
  { top := Node.put (.directory []) (.directory []) here, here := here }

instance : Inhabited Disk := ⟨blank []⟩

def piecesOf (text : String) : List String := (text.toList.splitOn '/').map String.ofList

def isAbsolute (text : String) : Bool := text.toList.head? == some '/'

def piecesFrom (base : Location) (text : String) : List String :=
  if isAbsolute text then piecesOf text else base ++ piecesOf text

abbrev Way := List (String × Node)

def Way.location (way : Way) : Location := (way.map (·.1)).reverse

def lastNode (disk : Disk) : Way → Node
  | [] => disk.top
  | (_, node) :: _ => node

inductive Aim where
  /-- The place at the end of all links. -/
  | target
  /-- The place that the last piece names, be it that of a link. -/
  | entry
  /-- The place of a file to write, there already or not. -/
  | file
  deriving DecidableEq

/-- Goes on from where a way ends by the pieces of a path; `follow` goes on by way of a link. A file
to write has to be named by the last piece. -/
def walkWith (disk : Disk) (follow : Way → List String → Except SystemError Location) (aim : Aim) :
    Way → List String → Except SystemError Location
  | way, [] =>
    if aim = .file ∧ (disk.lastNode way).isDirectory then .error .isDirectory else .ok way.location
  | way, piece :: rest =>
    if !(disk.lastNode way).isDirectory then .error .notDirectory
    else if piece = "" ∨ piece = "." then walkWith disk follow aim way rest
    else if piece = ".." then walkWith disk follow aim way.tail rest
    else if aim = .file ∧ !rest.isEmpty ∧ rest.all String.isEmpty then .error .isDirectory
    else if nameLimit < piece.utf8ByteSize then .error .nameTooLong
    else match (disk.lastNode way).entries.lookup piece with
      | none =>
        if aim = .file ∧ rest.isEmpty then .ok (way.location ++ [piece]) else .error .noEntry
      | some (.link target) =>
        if aim = .entry ∧ rest.isEmpty then .ok (way.location ++ [piece])
        else follow (if isAbsolute target then [] else way) (piecesOf target ++ rest)
      | some node => walkWith disk follow aim ((piece, node) :: way) rest

def walk (disk : Disk) (aim : Aim) : Nat → Way → List String → Except SystemError Location
  | 0 => walkWith disk (fun _ _ => .error .tooManyLinks) aim
  | links + 1 => walkWith disk (walk disk aim links) aim

/-- The place that a path leads to. -/
def locate (disk : Disk) (aim : Aim) (text : String) : Except SystemError Location :=
  if text.isEmpty then .error .noEntry
  else if pathLimit ≤ text.utf8ByteSize then .error .nameTooLong
  else disk.walk aim linkLimit [] (piecesFrom disk.here text)

def nodeAt (disk : Disk) (path : Path) : Except SystemError Node := do
  let location ← disk.locate .target path.text
  match disk.node? location with
  | some node => return node
  | none => throw .noEntry

/-- Writes a file, in place of what it held before. A file that can be opened can also be written:
permissions, and a device that fails once the file is there, are not modelled. -/
def write (disk : Disk) (path : Path) (content : String) : Except SystemError Disk := do
  let location ← disk.locate .file path.text
  return disk.put location (.file content.toUTF8)

def readText (disk : Disk) (path : Path) : Except Fault String :=
  match disk.nodeAt path with
  | .error error => .error (.refused error)
  | .ok (.file content) =>
    match String.fromUTF8? content with
    | some text => .ok text
    | none => .error .notText
  | .ok _ => .error (.refused .isDirectory)

def isEntryName (name : String) : Bool := !name.isEmpty && !name.toList.contains '/'

def list (disk : Disk) (path : Path) : Except Fault (List Path) :=
  match disk.locate .target path.text with
  | .error error => .error (.refused error)
  | .ok location =>
    match disk.node? location with
    | some (.directory entries) =>
      .ok (((entries.map (·.1)).filter isEntryName).map path.join)
    | _ => .error (.refused .notDirectory)

def isDirectory (disk : Disk) (path : Path) : Bool :=
  match disk.nodeAt path with
  | .ok node => node.isDirectory
  | .error _ => false

def isLink (disk : Disk) (path : Path) : Bool :=
  match disk.locate .entry path.text with
  | .error _ => false
  | .ok location =>
    match disk.node? location with
    | some (.link _) => true
    | _ => false

def size (disk : Disk) (path : Path) : Except Fault Nat :=
  match disk.nodeAt path with
  | .error error => .error (.refused error)
  | .ok (.file content) => .ok content.size
  | .ok _ => .ok pathLimit

theorem utf8ByteSize_join {path : Path} {name : String} (given : path.text.isEmpty = false)
    (proper : isEntryName name = true) :
    path.text.utf8ByteSize < (path.join name).text.utf8ByteSize := by
  simp only [isEntryName, Bool.and_eq_true, Bool.not_eq_true'] at proper
  obtain ⟨some, flat⟩ := proper
  have long : 0 < name.utf8ByteSize := by
    rcases Nat.eq_zero_or_pos name.utf8ByteSize with zero | positive
    · rw [String.utf8ByteSize_eq_zero_iff] at zero
      simp [zero] at some
    · exact positive
  have start : name.toList.head? ≠ Option.some '/' := by
    intro slash
    have member := List.mem_of_head? slash
    simp [member] at flat
  have full : path.text.toList.isEmpty = false := by simpa using given
  unfold Path.join
  simp only [full, Bool.false_or, decide_eq_true_eq, start, if_false]
  split
  · simp only [Path.ofText, String.utf8ByteSize_append]
    omega
  · simp only [Path.ofText, String.utf8ByteSize_append]
    omega

def fileSystem (disk : Disk) : FileSystem where
  readText := disk.readText
  list := disk.list
  isDirectory := disk.isDirectory
  isLink := disk.isLink
  size := disk.size
  room path := pathLimit - path.text.utf8ByteSize
  room_lt := by
    intro directory entries entry listing member _ _
    unfold list at listing
    split at listing
    · exact absurd listing (by simp)
    · rename_i location found
      split at listing
      · rw [← Except.ok.inj listing] at member
        obtain ⟨name, inDirectory, rfl⟩ := List.mem_map.mp member
        have proper : isEntryName name = true := (List.mem_filter.mp inDirectory).2
        unfold locate at found
        split at found
        · exact absurd found (by simp)
        · rename_i given
          split at found
          · exact absurd found (by simp)
          · have longer := utf8ByteSize_join (by simpa using given) proper
            omega
      · exact absurd listing (by simp)

end Disk

end Campaign
