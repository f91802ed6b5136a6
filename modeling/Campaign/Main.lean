import Campaign.CommandLine.Run

namespace Campaign.CommandLine

def textOf (location : Location) : String := "/" ++ String.intercalate "/" location

/-- A name that no entry has, as the target of links that lead nowhere. -/
def nowhere : String := "/\x00"

/-- Loads what stands at a place, without the entries of a directory. The target of a link is the
place where it leads in the end. -/
def loadNode (disk : Disk) (location : Location) : IO Disk := do
  let path := (← IO.currentDir) / textOf location
  let kind ← try pure (some (← path.symlinkMetadata).type) catch _ => pure none
  match kind with
  | none => return disk
  | some .dir => return disk.putDirectories location
  | some .symlink =>
    let target ← try pure (← IO.FS.realPath path).toString catch _ => pure nowhere
    return disk.put location (.link (if target = textOf location then nowhere else target))
  | some .file => return disk.put location (.file (← IO.FS.readBinFile path))
  | some .other => return disk.put location (.file .empty)

partial def loadWay (disk : Disk) (location : Location) (pieces : List String) :
    IO (Disk × Location) := do
  match pieces with
  | [] => return (disk, location)
  | piece :: rest =>
    if piece = "" || piece = "." then loadWay disk location rest
    else if piece = ".." then loadWay disk location.dropLast rest
    else
      let place := location ++ [piece]
      let disk ← loadNode disk place
      match disk.node? place with
      | none => return (disk, place)
      | some (.link target) => loadWay disk [] (Disk.piecesOf target ++ rest)
      | some _ => loadWay disk place rest

partial def loadInside (disk : Disk) (location : Location) : IO Disk := do
  if !(disk.node? location).any Node.isDirectory then return disk
  let mut loaded := disk
  for entry in ← ((← IO.currentDir) / textOf location).readDir do
    let place := location ++ [entry.fileName]
    loaded ← loadNode loaded place
    match loaded.node? place with
    | some (.directory _) => loaded ← loadInside loaded place
    | some (.link target) => loaded := (← loadWay loaded [] (Disk.piecesOf target)).1
    | _ => pure ()
  return loaded

def loadPath (disk : Disk) (text : String) : IO (Disk × Location) :=
  loadWay disk [] (Disk.piecesFrom disk.here text)

def Request.load (request : Request) : IO Disk := do
  let (disk, here) ← loadWay (.blank []) []
    (Disk.piecesOf (← IO.currentDir).toString)
  let disk := { disk with here := here }
  match request.command with
  | .summary report _ => return (← loadPath disk report.text).1
  | command =>
    let (disk, place) ← loadPath disk request.root.text
    let disk ← loadInside disk place
    match command with
    | .exporting (some output) => return (← loadPath disk output.text).1
    | _ => return disk

def report (errors : List String) : IO Unit := do
  for error in errors do
    IO.eprintln ("ERROR " ++ error)

def finish (result : Result) (written : Option (Path × String)) : IO UInt32 := do
  report result.errors
  IO.print result.output
  match written with
  | none => return UInt32.ofNat result.status
  | some (path, text) =>
    try
      IO.FS.writeFile path.text text
      return UInt32.ofNat result.status
    catch error =>
      report [Text.shown ("cannot create " ++ path.text ++ ": " ++ toString error)]
      return 1

def Request.written? (request : Request) (result : Result) : Option (Path × String) :=
  match request.command, result.status with
  | .exporting (some path), 0 => (result.disk.readText path).toOption.map fun text => (path, text)
  | _, _ => none

end Campaign.CommandLine

open Campaign.CommandLine in
def main (arguments : List String) : IO UInt32 := do
  let environment ← IO.getEnv "IOBENCH_ROOT"
  match read environment arguments with
  | .run request =>
    let result := request.run (← request.load)
    finish result (request.written? result)
  | .rejected =>
    IO.eprint helpText
    return UInt32.ofNat rejectedStatus
  | _ => finish (run environment (.blank []) arguments) none
