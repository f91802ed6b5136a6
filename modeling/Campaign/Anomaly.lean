import Campaign.Cell
import Campaign.Report.Error

namespace Campaign

inductive Misplacement where
  | linkedDirectory
  | notClassDirectory
  | notDateDirectory
  | nestedDirectory
  deriving DecidableEq

def Misplacement.text : Misplacement → String
  | .linkedDirectory => "symlinked directory not followed"
  | .notClassDirectory => "expected a node-count directory"
  | .notDateDirectory => "expected a date directory"
  | .nestedDirectory => "nested directory inside a date directory"

inductive CatalogLevel where
  | nodeCount
  | stripeCount
  | stripeSize
  deriving DecidableEq

def CatalogLevel.text : CatalogLevel → String
  | .nodeCount => "node count"
  | .stripeCount => "stripe count"
  | .stripeSize => "stripe size"

inductive CountScope where
  | catalogued
  | usable
  deriving DecidableEq

def CountScope.text : CountScope → String
  | .catalogued => "output files"
  | .usable => "usable records"

inductive Anomaly where
  | unrecognizedName (path : Path)
  | unexpectedEntry (path : Path) (reason : Misplacement)
  | vanishedEntry (path : Path) (fault : Fault)
  | unusableFile (path : Path) (error : ReportError)
  | countMismatch (cell : Cell) (scope : CountScope) (expected found : Nat)
  | missingCell (cell : Cell) (level : CatalogLevel)
  deriving DecidableEq

namespace Anomaly

/-- Whether the results for a cell suffer from the anomaly; the others are routine skips. -/
def isViolation : Anomaly → Bool
  | .unrecognizedName _ => false
  | .unexpectedEntry _ _ => false
  | .vanishedEntry _ _ => false
  | .unusableFile _ _ => true
  | .countMismatch _ _ _ _ => true
  | .missingCell _ _ => true

def message : Anomaly → String
  | .unrecognizedName path => "unrecognized output filename: " ++ path.text
  | .unexpectedEntry path reason => "unexpected entry " ++ path.text ++ ": " ++ reason.text
  | .vanishedEntry path fault =>
    "entry vanished during walk " ++ path.text ++ ": " ++ fault.message
  | .unusableFile path error => "unusable output file " ++ path.text ++ ": " ++ error.message
  | .countMismatch cell scope expected found =>
    cell.text ++ ": expected " ++ Text.decimal expected ++ " " ++ scope.text ++
      ", found " ++ Text.decimal found
  | .missingCell cell level =>
    cell.text ++ ": " ++ level.text ++ " not found in output directory"

end Anomaly

def violations (anomalies : List Anomaly) : List Anomaly := anomalies.filter Anomaly.isViolation

end Campaign
