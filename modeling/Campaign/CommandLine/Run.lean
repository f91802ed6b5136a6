import Campaign.CommandLine.Listing
import Campaign.Disk
import Campaign.Export
import Campaign.Text.Terminal

namespace Campaign.CommandLine

/-- What came of a command line: the exit status, the text printed, the errors reported in a form
for terminals, and the disk afterwards. -/
structure Result where
  status : Nat
  output : String
  errors : List String
  disk : Disk

def Result.success (disk : Disk) (errors : List String) (output : String) : Result :=
  { status := 0, output := output, errors := errors.map Text.shown, disk := disk }

def Result.failure (disk : Disk) (errors : List String) (reason : String) : Result :=
  { status := 1, output := "", errors := (errors ++ [reason]).map Text.shown, disk := disk }

def rejectedStatus : Nat := 2

def versionText : String := "iobench 0.1.0\n"

/-- The commands there are. This stands for the text that the program prints, which is made by a
library for command lines out of all options and is not modelled. -/
def helpText : String :=
  Text.unlines ["Usage: iobench [OPTIONS] <COMMAND>", "",
    "Commands:",
    "  tree     List cataloged output files per cell",
    "  series   Peak throughput by node count from raw output",
    "  export   Write the aggregation index as a summary CSV",
    "  summary  Peak throughput by node count from a summary CSV report"]

def reports (anomalies : List Anomaly) : List String := (violations anomalies).map Anomaly.message

def runTree (disk : Disk) (root : Path) : Result :=
  match Catalog.build disk.fileSystem root with
  | .error error => .failure disk [] error.message
  | .ok (catalog, _) => .success disk [] (treeText catalog)

def withIndex (disk : Disk) (root : Path) (dialect : Dialect)
    (next : Index → List String → Result) : Result :=
  match Index.build disk.fileSystem root dialect with
  | .error error => .failure disk [] error.message
  | .ok (index, anomalies) => next index (reports anomalies)

def runSeries (disk : Disk) (root : Path) (dialect : Dialect) (selection : Selection) : Result :=
  withIndex disk root dialect fun index errors =>
    match index.series selection.op selection.stripes selection.size with
    | .error error => .failure disk errors error.message
    | .ok series => .success disk errors (seriesText selection series)

/-- Writes the export of a root: to a file if one is named, which is created only once there is
something to write. -/
def runExport (disk : Disk) (root : Path) (dialect : Dialect) (output : Option Path) : Result :=
  withIndex disk root dialect fun index errors =>
    let text := String.ofList (Export.text index)
    match output with
    | none => .success disk errors text
    | some path =>
      match disk.write path text with
      | .error error =>
        .failure disk errors ("cannot create " ++ path.text ++ ": " ++ error.message)
      | .ok written => .success written errors ""

def runSummary (disk : Disk) (report : Path) (selection : Selection) : Result :=
  match Summary.ofFile disk.fileSystem report with
  | .error error => .failure disk [] (report.text ++ ": " ++ error.message)
  | .ok summary => .success disk [] (summaryText selection summary)

def Request.run (request : Request) (disk : Disk) : Result :=
  match request.command with
  | .tree => runTree disk request.root
  | .series selection => runSeries disk request.root request.dialect selection
  | .exporting output => runExport disk request.root request.dialect output
  | .summary report selection => runSummary disk report selection

def run (environment : Option String) (disk : Disk) (arguments : List String) : Result :=
  match read environment arguments with
  | .run request => request.run disk
  | .version => .success disk [] versionText
  | .help => .success disk [] helpText
  | .rejected => { status := rejectedStatus, output := "", errors := [], disk := disk }

end Campaign.CommandLine
