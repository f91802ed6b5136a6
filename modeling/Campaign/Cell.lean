import Campaign.Text.Blank
import Campaign.Text.Natural

namespace Campaign

inductive NodeCount where
  | n1 | n2 | n4 | n8 | n16 | n24 | n32 | n40 | n48
  deriving DecidableEq, Repr

namespace NodeCount

def all : List NodeCount := [.n1, .n2, .n4, .n8, .n16, .n24, .n32, .n40, .n48]

theorem mem_all (count : NodeCount) : count ∈ all := by cases count <;> decide

def nodes : NodeCount → Nat
  | .n1 => 1
  | .n2 => 2
  | .n4 => 4
  | .n8 => 8
  | .n16 => 16
  | .n24 => 24
  | .n32 => 32
  | .n40 => 40
  | .n48 => 48

theorem ascending_all : all.Pairwise fun left right => left.nodes < right.nodes := by decide

def ofNodes? (nodes : Nat) : Option NodeCount := all.find? (·.nodes = nodes)

def place (count : NodeCount) : Nat := all.idxOf count

def label (count : NodeCount) : String := Text.decimal count.nodes

end NodeCount

/-- The numbers of storage targets that a file is striped across. -/
inductive StripeCount where
  | four | sixteen
  deriving DecidableEq, Repr

namespace StripeCount

def all : List StripeCount := [.four, .sixteen]

theorem mem_all (count : StripeCount) : count ∈ all := by cases count <;> decide

def count : StripeCount → Nat
  | .four => 4
  | .sixteen => 16

theorem count_injective {left right : StripeCount} (same : left.count = right.count) :
    left = right := by
  cases left <;> cases right <;> first | rfl | exact absurd same (by decide)

def ofCount? (count : Nat) : Option StripeCount := all.find? (·.count = count)

def place (stripes : StripeCount) : Nat := all.idxOf stripes

def label (stripes : StripeCount) : String := Text.decimal stripes.count

structure NameError where
  text : String
  deriving DecidableEq

def NameError.message (error : NameError) : String :=
  "unsupported stripe count '" ++ error.text ++ "' (expected 4 or 16)"

def ofText (text : String) : Except NameError StripeCount :=
  match (Text.readCount? (Text.trim text.toList)).bind ofCount? with
  | some stripes => .ok stripes
  | none => .error { text := text }

end StripeCount

inductive StripeSize where
  | k64 | m1 | m8
  deriving DecidableEq, Repr

namespace StripeSize

def all : List StripeSize := [.k64, .m1, .m8]

theorem mem_all (size : StripeSize) : size ∈ all := by cases size <;> decide

def label : StripeSize → String
  | .k64 => "64K"
  | .m1 => "1M"
  | .m8 => "8M"

theorem label_injective {left right : StripeSize} (same : left.label = right.label) :
    left = right := by
  cases left <;> cases right <;> first | rfl | exact absurd same (by decide)

def ofLabel? (label : String) : Option StripeSize := all.find? (·.label = label)

def place (size : StripeSize) : Nat := all.idxOf size

structure NameError where
  text : String
  deriving DecidableEq

def NameError.message (error : NameError) : String :=
  "unsupported stripe size '" ++ error.text ++ "' (expected 64K, 1M or 8M)"

def ofText (text : String) : Except NameError StripeSize :=
  match ofLabel? (Text.upper (Text.trimmed text)) with
  | some size => .ok size
  | none => .error { text := text }

end StripeSize

structure Cell where
  nodes : NodeCount
  stripes : StripeCount
  size : StripeSize
  deriving DecidableEq, Repr

namespace Cell

def all : List Cell :=
  NodeCount.all.flatMap fun nodes =>
    StripeCount.all.flatMap fun stripes =>
      StripeSize.all.map fun size => { nodes := nodes, stripes := stripes, size := size }

theorem mem_all (cell : Cell) : cell ∈ all := by
  obtain ⟨nodes, stripes, size⟩ := cell
  simp only [all, List.mem_flatMap, List.mem_map]
  exact ⟨nodes, nodes.mem_all, stripes, stripes.mem_all, size, size.mem_all, rfl⟩

/-- The number of nodes that report for the cell. -/
def participants (cell : Cell) : Nat := cell.nodes.nodes

def text (cell : Cell) : String :=
  "nodes=" ++ cell.nodes.label ++ " stripes=" ++ cell.stripes.label ++ " size=" ++ cell.size.label

end Cell

end Campaign
