import Campaign.Binary64.Arithmetic
import Campaign.Binary64.Fixed
import Campaign.Dialect
import Campaign.Operation
import Campaign.Text.Lines

namespace Campaign

namespace Ior

structure Figures where
  max : Binary64
  min : Binary64
  mean : Binary64
  deriving DecidableEq

def writtenRow (lead : String) (figures : Figures) : String :=
  lead ++ figures.max.toFixed 2 ++ "    " ++ figures.min.toFixed 2 ++ "    " ++
    figures.mean.toFixed 2 ++ "     0.00    POSIX"

def report (write read : Figures) : String :=
  Text.unlines ["Summary of all tests:",
    "Operation   Max(MiB)   Min(MiB)  Mean(MiB)     StdDev   API",
    writtenRow "write       " write,
    writtenRow "read        " read]

end Ior

namespace Lsm

structure Figures where
  max : Binary64
  min : Binary64
  mean : Binary64
  mib : Binary64
  ops : Binary64
  iterations : Nat
  deriving DecidableEq

def header : String :=
  String.intercalate "," ["access", maxColumn, minColumn, meanColumn, totalMibColumn,
    totalOpsColumn, iterationColumn]

def writtenRow (access : String) (figures : Figures) : String :=
  String.intercalate "," [access, figures.max.toFixed 2, figures.min.toFixed 2,
    figures.mean.toFixed 2, figures.mib.toFixed 2, figures.ops.toFixed 0,
    Text.decimal figures.iterations]

/-- The figures of one iteration out of all: their mean throughput and an even share of the
totals. -/
def Figures.oneIteration (figures : Figures) : Figures :=
  let share := Binary64.ofNat (Nat.max figures.iterations 1)
  { max := figures.mean
    min := figures.mean
    mean := figures.mean
    mib := figures.mib / share
    ops := figures.ops / share
    iterations := 1 }

def report (write read : Figures) : String :=
  Text.unlines ["BENCHMARK PARAMETERS:", "", " MPI: Enabled", " MPI Rank: 0",
    " fileName: kvbench.db", " dirName: /scratch/kv/data/4/1M",
    " iterations: " ++ Text.decimal write.iterations, " keyCount: 4096",
    " valueSize: 65536", "", "BENCHMARK RESULTS:", "",
    "Iteration-WRITE: lsm", header, writtenRow "iwrite" write.oneIteration, "",
    "Bench-WRITE: lsm", header, writtenRow "write" write, "",
    "Iteration-READ: lsm", header, writtenRow "iread" read.oneIteration, "",
    "Bench-READ: lsm", header, writtenRow "read" read]

end Lsm

end Campaign
