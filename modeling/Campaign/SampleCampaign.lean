import Campaign.Cell
import Campaign.MemoryTree
import Campaign.Report.Written
import Campaign.RunName

namespace Campaign.Sample

def fileName (label : String) (cell : Cell) (rank : Nat) : String :=
  RunName.text {
    label := label
    stripeCount := cell.stripes.count
    stripeSize := cell.size.label
    date := "2023-07-21"
    host := "node" ++ Text.decimal (100 + rank)
    rank := rank
    ext := "txt"
    sequence := 1 }

/-- The peak write throughput of a cell: a hundred for each node, twice that over sixteen stripes,
and a fraction that tells the stripe size. -/
def writePeak (cell : Cell) : Binary64 :=
  let stripes : Binary64 := match cell.stripes with
    | .four => 1
    | .sixteen => 2
  let size : Binary64 := match cell.size with
    | .k64 => 1 / 4
    | .m1 => 1 / 2
    | .m8 => 3 / 4
  100 * Binary64.ofNat cell.participants * stripes + size

def nodeFigures (cell : Cell) (rank : Nat) : PerOperation Lsm.Figures :=
  let base := writePeak cell / Binary64.ofNat cell.participants
  let rank := Binary64.ofNat rank
  { read := { max := 2 * base + rank, min := base, mean := base * (3 / 2), mib := 2560,
              ops := 40960, iterations := 10 }
    write := { max := base + rank, min := base / 2, mean := base * (3 / 4), mib := 2560,
               ops := 40960, iterations := 10 } }

def nodeReport (cell : Cell) (rank : Nat) : String :=
  let figures := nodeFigures cell rank
  Lsm.report figures.write figures.read

def writerReport (cell : Cell) : String :=
  let peak := writePeak cell
  Ior.report { max := peak, min := peak / 2, mean := peak * (3 / 4) }
    { max := peak * 3, min := peak, mean := peak * 2 }

def tree (root : Path) (date label : String) (cells : List Cell) (report : Cell → Nat → String) :
    MemoryTree :=
  cells.foldl (fun tree cell =>
    (List.range cell.participants).foldl (fun tree rank =>
      tree.addFile (((root.join cell.nodes.label).join date).join (fileName label cell rank))
        (report cell rank)) tree) .empty

def ior (root : Path) : MemoryTree :=
  tree root "2023-07-21" "collective" Cell.all fun cell rank =>
    if rank = 0 then writerReport cell else ""

def lsm (root : Path) : MemoryTree := tree root "2023-07-22" "lsm" Cell.all nodeReport

def singleNode (root : Path) : MemoryTree :=
  tree root "2023-07-21" "collective" (Cell.all.filter (·.nodes = .n1)) fun cell _ =>
    let peak := writePeak cell
    let figures : Ior.Figures := { max := peak, min := peak, mean := peak }
    Ior.report figures figures

end Campaign.Sample
