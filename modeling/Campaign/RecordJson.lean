import Campaign.Json
import Campaign.Series

namespace Campaign

def Metric.json : Metric → List Char
  | .number value => Json.number value
  | .text word => Json.string word

def Metrics.json (metrics : Metrics) : List Char :=
  Json.object (metrics.pairs.map fun (column, value) => (column, value.json))

def Totals.json (totals : Totals) : List Char :=
  Json.object [("max_mib_s", Json.number totals.max), ("min_mib_s", Json.number totals.min),
    ("mean_mib_s", Json.number totals.mean), ("total_mib", Json.number totals.mib),
    ("total_ops", Json.number totals.ops), ("iteration", Json.count totals.iteration)]

def Aggregate.json : Aggregate → List Char
  | .empty => Json.object [("kind", Json.string "empty")]
  | .single record => Json.object [("kind", Json.string "single"),
      ("record", Json.object [("read", record.read.json), ("write", record.write.json)])]
  | .summed record => Json.object [("kind", Json.string "summed"),
      ("record", Json.object [("read", record.totals.read.json),
        ("write", record.totals.write.json), ("participants", Json.count record.participants)])]

def Series.jsonLines (series : Series) (op : Operation) (stripes : StripeCount)
    (size : StripeSize) : List Char :=
  Json.objectLines 0 [("operation", Json.string op.name),
    ("stripe_count", Json.count stripes.count), ("stripe_size", Json.string size.label),
    ("node_counts", Json.arrayLines 1 (series.points.map fun (nodes, _) => Json.count nodes)),
    ("values", Json.arrayLines 1 (series.points.map fun (_, value) => Json.number value))]

def Cell.json (cell : Cell) : List Char :=
  let nodes := "N" ++ cell.nodes.label
  let stripes := match cell.stripes with
    | .four => "Four"
    | .sixteen => "Sixteen"
  let size := match cell.size with
    | .k64 => "K64"
    | .m1 => "M1"
    | .m8 => "M8"
  Json.object [("node_count", Json.string nodes), ("stripe_count", Json.string stripes),
    ("stripe_size", Json.string size)]

end Campaign
