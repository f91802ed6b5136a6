import Campaign.Anomaly

namespace Campaign

inductive Entry where
  | file (size : Nat)
  | directory (entries : List (String × Entry))

structure Snapshot where
  /-- In ascending order of name. -/
  entries : List (String × Entry)
  anomalies : List Anomaly
  /-- The directories inside whose entries were asked for, in that order. -/
  listed : List Path

structure RootUnreadable where
  path : Path
  fault : Fault
  deriving DecidableEq

def RootUnreadable.message (error : RootUnreadable) : String :=
  "cannot read output directory " ++ error.path.text ++ ": " ++ error.fault.message

namespace Snapshot

structure Visit where
  found : Option (String × Entry)
  anomalies : List Anomaly
  listed : List Path

def Visit.nothing : Visit := { found := none, anomalies := [], listed := [] }

/-- Looks at a listed path; `inside` walks through a directory. A path without a name is passed
over. -/
def visit (files : FileSystem) (inside : Path → Except Fault Snapshot) (path : Path) : Visit :=
  match path.fileName? with
  | none => .nothing
  | some name =>
    if files.isDirectory path then
      if files.isLink path then
        { Visit.nothing with anomalies := [.unexpectedEntry path .linkedDirectory] }
      else match inside path with
        | .ok nested =>
          { found := some (name, .directory nested.entries)
            anomalies := nested.anomalies
            listed := path :: nested.listed }
        | .error fault =>
          { found := none, anomalies := [.vanishedEntry path fault], listed := [path] }
    else match files.size path with
      | .ok size => { Visit.nothing with found := some (name, .file size) }
      | .error fault => { Visit.nothing with anomalies := [.vanishedEntry path fault] }

def ofVisits (visits : List Visit) : Snapshot :=
  { entries := (visits.filterMap (·.found)).foldl
      (fun entries found => insertPair found.1 found.2 entries) []
    anomalies := visits.flatMap (·.anomalies)
    listed := visits.flatMap (·.listed) }

def within (files : FileSystem) : Nat → Path → Except Fault Snapshot
  | 0, directory => (files.list directory).map fun paths =>
      ofVisits (paths.map (visit files fun path => .error (.directoryMissing path)))
  | depth + 1, directory => (files.list directory).map fun paths =>
      ofVisits (paths.map (visit files (within files depth)))

/-- The snapshot of a directory. Only the listing of that directory itself can fail. -/
def take (files : FileSystem) (root : Path) : Except RootUnreadable Snapshot :=
  match within files (files.room root) root with
  | .ok snapshot => .ok snapshot
  | .error fault => .error { path := root, fault := fault }

theorem visit_congr {files : FileSystem} {left right : Path → Except Fault Snapshot} {path : Path}
    (agree : files.isDirectory path = true → files.isLink path = false → left path = right path) :
    visit files left path = visit files right path := by
  unfold visit
  split
  · rfl
  · split
    · rename_i directory
      split
      · rfl
      · rename_i link
        rw [agree directory (by simpa using link)]
    · rfl

/-- The bound on the depth has no effect once it reaches the room of the directory. -/
theorem within_eq (files : FileSystem) {depth : Nat} {directory : Path}
    (deep : files.room directory ≤ depth) :
    within files depth directory = (files.list directory).map fun paths =>
      ofVisits (paths.map (visit files fun path => within files (files.room path) path)) := by
  induction depth using Nat.strongRecOn generalizing directory with
  | ind depth ih =>
    cases listing : files.list directory with
    | error fault => cases depth <;> simp [within, listing, Except.map]
    | ok paths =>
      cases depth with
      | zero =>
        simp only [within, listing, Except.map]
        congr 2
        refine List.map_congr_left fun path member => visit_congr fun isDir noLink => ?_
        have := files.room_lt listing member isDir noLink
        omega
      | succ depth =>
        simp only [within, listing, Except.map]
        congr 2
        refine List.map_congr_left fun path member => visit_congr fun isDir noLink => ?_
        have smaller := files.room_lt listing member isDir noLink
        rw [ih depth (by omega) (by omega), ih (files.room path) (by omega) (Nat.le_refl _)]

end Snapshot

end Campaign
