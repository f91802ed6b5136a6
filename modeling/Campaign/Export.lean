import Campaign.Binary64.Fixed
import Campaign.Index

namespace Campaign.Export

def header : List Char := "N,Stripes,BlockSize,Operation,Max(MiB),Min(MiB),Mean(MiB)".toList

def sizesByLabel : List StripeSize := [.m1, .k64, .m8]

structure Row where
  op : Operation
  cell : Cell
  figures : Throughput
  deriving DecidableEq

/-- The rows of an index, for the operations and cells that have throughput: by operation, then by
the label of the stripe size, stripe count and number of nodes. -/
def rows (index : Index) : List Row :=
  Operation.all.flatMap fun op =>
    sizesByLabel.flatMap fun size =>
      StripeCount.all.flatMap fun stripes =>
        NodeCount.all.filterMap fun nodes =>
          let cell : Cell := { nodes := nodes, stripes := stripes, size := size }
          ((index.get cell).throughput? op).map fun figures =>
            { op := op, cell := cell, figures := figures }

def Row.fields (row : Row) : List (List Char) :=
  [row.cell.nodes.label.toList, row.cell.stripes.label.toList, row.cell.size.label.toList,
    row.op.name.toList, row.figures.max.fixedText 2, row.figures.min.fixedText 2,
    row.figures.mean.fixedText 2]

def Row.line (row : Row) : List Char := List.intercalate [','] row.fields

def textOfRows (rows : List Row) : List Char :=
  (header :: rows.map Row.line).flatMap (· ++ ['\n'])

def text (index : Index) : List Char := textOfRows (rows index)

end Campaign.Export
