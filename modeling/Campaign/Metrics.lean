import Campaign.Binary64.Decimal
import Campaign.Table

namespace Campaign

inductive Metric where
  | number (value : Binary64)
  | text (text : String)
  deriving DecidableEq

namespace Metric

def number? : Metric → Option Binary64
  | .number value => some value
  | .text _ => none

def ofText (numeric : Bool) (text : String) : Metric :=
  match numeric, Binary64.ofText? text.toList with
  | true, some value => .number value
  | _, _ => .text text

end Metric

abbrev Metrics := Table String Metric

namespace Metrics

/-- Pairs column names with texts by position, as far as both lists go. Of columns with one name the
last gives the value. -/
def zip (header values numeric : List String) : Metrics :=
  Table.ofList ((header.zip values).map fun (name, text) =>
    (name, Metric.ofText (numeric.contains name) text))

def number? (metrics : Metrics) (column : String) : Option Binary64 :=
  (metrics.get? column).bind Metric.number?

end Metrics

end Campaign
