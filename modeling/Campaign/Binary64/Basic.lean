namespace Campaign

-- Powers are written `Nat.pow`, which is one function whatever notation for powers is in scope.

/-- The number of finite magnitudes; in the bit pattern, the place of infinity. -/
def infinityRank : Nat := 2047 * Nat.pow 2 52

/-- A 64-bit binary floating-point number: a sign and a rank, the place of the magnitude among the
finite ones in ascending order, which is also what the bits below the sign bit write. -/
inductive Binary64 where
  | nan
  | infinite (negative : Bool)
  | finite (negative : Bool) (rank : Fin infinityRank)
  deriving DecidableEq

/-- Magnitudes are counted in units of `2 ^ (-1074)`, the smallest positive one. -/
def unitsInOne : Nat := Nat.pow 2 1074

/-- The magnitude of the given rank, in units: steps of one unit up to `2 ^ 53`, of two units up to
`2 ^ 54`, and twice as wide in each range after that. -/
def unitsOfRank (rank : Nat) : Nat :=
  if rank < Nat.pow 2 52 then rank
  else (Nat.pow 2 52 + rank % Nat.pow 2 52) * Nat.pow 2 (rank / Nat.pow 2 52 - 1)

namespace Binary64

def zero : Binary64 := .finite false ⟨0, by decide⟩

instance : Inhabited Binary64 := ⟨zero⟩

def bits? : Binary64 → Option Nat
  | .nan => none
  | .infinite negative => some (negative.toNat * Nat.pow 2 63 + infinityRank)
  | .finite negative rank => some (negative.toNat * Nat.pow 2 63 + rank)

def units? : Binary64 → Option Int
  | .finite negative rank =>
    some (if negative then -(unitsOfRank rank : Int) else unitsOfRank rank)
  | _ => none

def position? : Binary64 → Option Int
  | .nan => none
  | .infinite negative => some (if negative then -(infinityRank : Int) else infinityRank)
  | .finite negative rank => some (if negative then -((rank : Nat) : Int) else (rank : Nat))

def atMost (left right : Binary64) : Bool :=
  match left.position?, right.position? with
  | some x, some y => x ≤ y
  | _, _ => false

/-- The number cut to a count of 64 bits: towards zero, kept within bounds, zero for
not-a-number. -/
def toCount : Binary64 → Nat
  | .nan => 0
  | .infinite negative => if negative then 0 else Nat.pow 2 64 - 1
  | .finite negative rank =>
    if negative then 0 else min (unitsOfRank rank / unitsInOne) (Nat.pow 2 64 - 1)

end Binary64

end Campaign
