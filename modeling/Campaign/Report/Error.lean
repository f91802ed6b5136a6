import Campaign.FileSystem
import Campaign.Operation

namespace Campaign

inductive ReportPart where
  | header
  | wholeSection (op : Operation)
  | row (op : Operation)
  deriving DecidableEq

def ReportPart.text : ReportPart → String
  | .header => "header"
  | .wholeSection op => op.name ++ " section"
  | .row op => op.name ++ " row"

inductive ReportError where
  | malformed (missing : List ReportPart)
  | failedRun (op : Operation)
  | missingMetric (op : Operation) (column : String)
  | unreadable (fault : Fault)
  deriving DecidableEq

def ReportError.message : ReportError → String
  | .malformed missing =>
    "malformed summary: missing " ++ String.intercalate ", " (missing.map ReportPart.text)
  | .failedRun op => "benchmark reported " ++ op.name ++ " as FAILED"
  | .missingMetric op column => op.name ++ " metric '" ++ column ++ "' missing or not numeric"
  | .unreadable fault => "I/O error: " ++ fault.message

end Campaign
