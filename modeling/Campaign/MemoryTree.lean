import Campaign.FileSystem

namespace Campaign

def leadsTo (paths : List Path) (path : Path) : Bool := paths.any path.same

/-- A tree of files held in memory, in which entries can also vanish: they are listed, and then
nothing is found there. A place keeps the text of the path by which it was first added. -/
structure MemoryTree where
  files : List (Path × String)
  directories : List Path
  vanished : List Path
  links : List Path
  deriving DecidableEq

namespace MemoryTree

def empty : MemoryTree := { files := [], directories := [], vanished := [], links := [] }

instance : Inhabited MemoryTree := ⟨empty⟩

def addPath (paths : List Path) (path : Path) : List Path :=
  if leadsTo paths path then paths else path :: paths

def ancestorsWithin : Nat → Path → List Path
  | 0, _ => []
  | limit + 1, path =>
    match path.parent? with
    | none => []
    | some parent => parent :: ancestorsWithin limit parent

def ancestors (path : Path) : List Path :=
  (ancestorsWithin path.depth path).filter fun above => !above.trail.isEmpty

def addAncestors (tree : MemoryTree) (path : Path) : MemoryTree :=
  { tree with directories := (ancestors path).foldl addPath tree.directories }

def contentAt? (tree : MemoryTree) (path : Path) : Option String :=
  (tree.files.find? fun file => path.same file.1).map (·.2)

def addFile (tree : MemoryTree) (path : Path) (content : String) : MemoryTree :=
  let tree := tree.addAncestors path
  if leadsTo (tree.files.map (·.1)) path then
    { tree with files := tree.files.map fun file =>
        if path.same file.1 then (file.1, content) else file }
  else { tree with files := (path, content) :: tree.files }

def addDirectory (tree : MemoryTree) (path : Path) : MemoryTree :=
  let tree := tree.addAncestors path
  { tree with directories := addPath tree.directories path }

def addVanished (tree : MemoryTree) (path : Path) : MemoryTree :=
  let tree := tree.addAncestors path
  { tree with vanished := addPath tree.vanished path }

def addLink (tree : MemoryTree) (path : Path) : MemoryTree :=
  let tree := tree.addDirectory path
  { tree with links := addPath tree.links path }

def hasFile (tree : MemoryTree) (path : Path) : Bool := (tree.contentAt? path).isSome

def removeFile (tree : MemoryTree) (path : Path) : MemoryTree :=
  { tree with files := tree.files.filter fun file => !path.same file.1 }

def isDirectory (tree : MemoryTree) (path : Path) : Bool := leadsTo tree.directories path

def isLink (tree : MemoryTree) (path : Path) : Bool := leadsTo tree.links path

def paths (tree : MemoryTree) : List Path :=
  tree.files.map (·.1) ++ tree.vanished ++ tree.directories

/-- Adds a path to the entries of a directory by its last step, unless that is taken. -/
def addEntry (entries : Table Component Path) (path : Path) : Table Component Path :=
  match path.trail with
  | [] => entries
  | last :: _ => entries.alter last fun present => present.getD path

def entries (tree : MemoryTree) (directory : Path) : List Path :=
  ((tree.paths.filter (·.isEntryOf directory)).foldl addEntry .empty).values

def list (tree : MemoryTree) (directory : Path) : Except Fault (List Path) :=
  if tree.isDirectory directory then .ok (tree.entries directory)
  else .error (.directoryMissing directory)

def readText (tree : MemoryTree) (path : Path) : Except Fault String :=
  match tree.contentAt? path with
  | some content => .ok content
  | none => .error (.fileMissing path)

def depth (tree : MemoryTree) : Nat :=
  tree.directories.foldl (fun deepest path => max deepest path.depth) 0

theorem mem_values_insertPair {pairs : List (Component × Path)} {key : Component}
    {value path : Path} (member : path ∈ (insertPair key value pairs).map (·.2)) :
    path = value ∨ path ∈ pairs.map (·.2) := by
  obtain ⟨pair, inPairs, rfl⟩ := List.mem_map.mp member
  rcases mem_insertPair inPairs with rfl | old
  · exact Or.inl rfl
  · exact Or.inr (List.mem_map_of_mem old)

theorem mem_values_addEntry {entries : Table Component Path} {added path : Path}
    (member : path ∈ (addEntry entries added).values) : path = added ∨ path ∈ entries.values := by
  unfold addEntry at member
  split at member
  · exact Or.inr member
  · rename_i last outer steps
    rcases mem_values_insertPair member with rfl | old
    · cases present : entries.get? last with
      | none => exact Or.inl rfl
      | some kept =>
        refine Or.inr (List.mem_map.mpr ⟨(last, kept), ?_, rfl⟩)
        have found : entries.pairs.lookup last = some kept := present
        obtain ⟨before, after, split, _⟩ := List.lookup_eq_some_iff.mp found
        simp [split]
    · exact Or.inr old

theorem mem_values_foldl_addEntry {added : List Path} {entries : Table Component Path} {path : Path}
    (member : path ∈ (added.foldl addEntry entries).values) :
    path ∈ added ∨ path ∈ entries.values := by
  induction added generalizing entries with
  | nil => exact Or.inr member
  | cons head rest ih =>
    rcases ih member with inRest | inEntries
    · exact Or.inl (List.mem_cons_of_mem _ inRest)
    · rcases mem_values_addEntry inEntries with rfl | old
      · exact Or.inl List.mem_cons_self
      · exact Or.inr old

theorem isEntryOf_of_mem_entries {tree : MemoryTree} {directory path : Path}
    (member : path ∈ tree.entries directory) :
    path ∈ tree.paths ∧ path.isEntryOf directory = true := by
  rcases mem_values_foldl_addEntry member with listed | absurdly
  · exact List.mem_filter.mp listed
  · exact absurd absurdly List.not_mem_nil

theorem foldl_max_le {paths : List Path} {start : Nat} :
    start ≤ paths.foldl (fun deepest path => max deepest path.depth) start ∧
      ∀ path ∈ paths,
        path.depth ≤ paths.foldl (fun deepest path => max deepest path.depth) start := by
  induction paths generalizing start with
  | nil => simp
  | cons head rest ih =>
    obtain ⟨above, each⟩ := @ih (max start head.depth)
    rw [List.foldl_cons]
    refine ⟨by omega, fun path member => ?_⟩
    rcases List.mem_cons.mp member with rfl | inRest
    · omega
    · exact each path inRest

theorem depth_le_depth {tree : MemoryTree} {path : Path}
    (directory : tree.isDirectory path = true) : path.depth ≤ tree.depth := by
  obtain ⟨stored, member, same⟩ := List.any_eq_true.mp directory
  rw [path.depth_eq, Path.same_iff.mp same, ← stored.depth_eq]
  exact (@foldl_max_le tree.directories 0).2 stored member

def fileSystem (tree : MemoryTree) : FileSystem where
  readText := tree.readText
  list := tree.list
  isDirectory := tree.isDirectory
  isLink := tree.isLink
  size path := (tree.readText path).map String.utf8ByteSize
  room path := tree.depth + 1 - path.depth
  room_lt := by
    intro directory entries entry listing member isDirectory _
    unfold list at listing
    split at listing
    · have inEntries : entry ∈ tree.entries directory := by
        rw [Except.ok.inj listing]; exact member
      have deeper := Path.depth_of_isEntryOf (isEntryOf_of_mem_entries inEntries).2
      have shallow := depth_le_depth isDirectory
      omega
    · exact absurd listing (by simp)

end MemoryTree

end Campaign
