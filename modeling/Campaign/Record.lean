import Campaign.Binary64.Arithmetic
import Campaign.Dialect
import Campaign.Metrics
import Campaign.Operation

namespace Campaign

abbrev RunRecord := PerOperation Metrics

namespace RunRecord

def number? (record : RunRecord) (op : Operation) (column : String) : Option Binary64 :=
  (record.get op).number? column

end RunRecord

structure Totals where
  max : Binary64
  min : Binary64
  mean : Binary64
  mib : Binary64
  ops : Binary64
  iteration : Nat
  deriving DecidableEq

namespace Totals

def zero : Totals :=
  { max := .zero, min := .zero, mean := .zero, mib := .zero, ops := .zero, iteration := 0 }

/-- Adds the figures of one more node. The iteration count, a setting of the run, is not summed: the
last one stands. -/
def add (totals node : Totals) : Totals :=
  { max := totals.max + node.max
    min := totals.min + node.min
    mean := totals.mean + node.mean
    mib := totals.mib + node.mib
    ops := totals.ops + node.ops
    iteration := node.iteration }

end Totals

structure JobTotals where
  totals : PerOperation Totals
  participants : Nat
  deriving DecidableEq

namespace JobTotals

def zero : JobTotals :=
  { totals := { read := .zero, write := .zero }, participants := 0 }

def addNode (record : JobTotals) (node : PerOperation Totals) : JobTotals :=
  { totals :=
      { read := record.totals.read.add node.read, write := record.totals.write.add node.write }
    participants := record.participants + 1 }

def ofNodes (nodes : List (PerOperation Totals)) : JobTotals := nodes.foldl addNode zero

end JobTotals

structure Throughput where
  max : Binary64
  min : Binary64
  mean : Binary64
  deriving DecidableEq

inductive Aggregate where
  | empty
  | single (record : RunRecord)
  | summed (record : JobTotals)
  deriving DecidableEq

namespace Aggregate

def isEmpty : Aggregate → Bool
  | .empty => true
  | _ => false

/-- The peak throughput of an operation: zero for an empty cell, and none for a record without a
numeric peak column. -/
def peak? (aggregate : Aggregate) (op : Operation) : Option Binary64 :=
  match aggregate with
  | .empty => some .zero
  | .single record => record.number? op Ior.maxColumn
  | .summed record => some (record.totals.get op).max

def throughput? (aggregate : Aggregate) (op : Operation) : Option Throughput :=
  match aggregate with
  | .empty => none
  | .single record => do
    let max ← record.number? op Ior.maxColumn
    let min ← record.number? op Ior.minColumn
    let mean ← record.number? op Ior.meanColumn
    return { max := max, min := min, mean := mean }
  | .summed record =>
    let totals := record.totals.get op
    some { max := totals.max, min := totals.min, mean := totals.mean }

end Aggregate

end Campaign
