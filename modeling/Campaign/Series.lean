import Campaign.Index

namespace Campaign

structure Series where
  points : List (Nat × Binary64)
  deriving DecidableEq

structure MissingPeak where
  nodes : Nat
  column : String
  deriving DecidableEq

def MissingPeak.message (error : MissingPeak) : String :=
  "record for " ++ Text.decimal error.nodes ++ " nodes has no numeric '" ++
    error.column ++ "' column"

def Index.point (index : Index) (op : Operation) (stripes : StripeCount) (size : StripeSize)
    (nodes : NodeCount) : Except MissingPeak (Nat × Binary64) :=
  match (index.get { nodes := nodes, stripes := stripes, size := size }).peak? op with
  | some value => .ok (nodes.nodes, value)
  | none => .error { nodes := nodes.nodes, column := index.dialect.peakColumn }

def Index.series (index : Index) (op : Operation) (stripes : StripeCount) (size : StripeSize) :
    Except MissingPeak Series := do
  return { points := ← NodeCount.all.mapM (index.point op stripes size) }

end Campaign
