import Campaign.Report.Ior
import Campaign.Report.Lsm

namespace Campaign

def Dialect.parse (dialect : Dialect) (text : List Char) : Except ReportError RunRecord :=
  match dialect with
  | .ior => Ior.parse text
  | .lsm => Lsm.parse text

def Dialect.readReport (dialect : Dialect) (files : FileSystem) (path : Path) :
    Except ReportError RunRecord :=
  match files.readText path with
  | .ok text => dialect.parse text.toList
  | .error fault => .error (.unreadable fault)

end Campaign
