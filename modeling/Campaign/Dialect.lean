import Campaign.Text.Blank

namespace Campaign

namespace Ior

def maxColumn : String := "Max(MiB)"
def minColumn : String := "Min(MiB)"
def meanColumn : String := "Mean(MiB)"

def numericColumns : List String :=
  [maxColumn, minColumn, meanColumn, "StdDev", "Max(OPs)", "Min(OPs)", "Mean(OPs)", "Mean(s)",
    "Stonewall(s)", "Stonewall(MiB)", "aggs(MiB)"]

end Ior

namespace Lsm

def maxColumn : String := "max(MiB)/s"
def minColumn : String := "min(MiB/s)"
def meanColumn : String := "mean(MiB/s)"
def totalMibColumn : String := "total(MiB)"
def totalOpsColumn : String := "total(Ops)"
def iterationColumn : String := "iteration"

def numericColumns : List String :=
  ["bw", "latency", maxColumn, minColumn, meanColumn, totalMibColumn, totalOpsColumn,
    iterationColumn]

end Lsm

/-- The kinds of report: `ior`, where one process writes the table of the whole job, and `lsm`,
where each node writes sections of its own. -/
inductive Dialect where
  | ior
  | lsm
  deriving DecidableEq, Repr

namespace Dialect

def name : Dialect → String
  | .ior => "ior"
  | .lsm => "lsm"

def numericColumns : Dialect → List String
  | .ior => Ior.numericColumns
  | .lsm => Lsm.numericColumns

def peakColumn : Dialect → String
  | .ior => Ior.maxColumn
  | .lsm => Lsm.maxColumn

structure NameError where
  text : String
  deriving DecidableEq

def NameError.message (error : NameError) : String :=
  "unknown dialect '" ++ error.text ++ "' (expected ior or lsm)"

def ofText (text : String) : Except NameError Dialect :=
  let word := Text.lower (Text.trimmed text)
  if word = "ior" then .ok .ior
  else if word = "lsm" || word = "lsmbench" || word = "lsm-bench" then .ok .lsm
  else .error { text := word }

end Dialect

end Campaign
