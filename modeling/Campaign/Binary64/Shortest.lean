import Campaign.Binary64.Decimal

namespace Campaign

/-- The power of ten just above a magnitude of `units`, which is not zero: the magnitude lies below
ten to this power and not below a tenth of that. -/
def decimalPlace (units : Nat) : Int :=
  if unitsInOne ≤ units then (Text.digits (units / unitsInOne)).length
  else 1 - ((Text.digits ((unitsInOne - 1) / units)).length : Int)

/-- The multiple of ten to the `exponent` next to a magnitude of `units` that reads back as `rank`:
of the ones just below and just above it, the one that does, or the nearer of the two. -/
def nearestOnGrid? (units rank : Nat) (exponent : Int) : Option Decimal :=
  let num := units * Nat.pow 10 (-exponent).toNat
  let den := unitsInOne * Nat.pow 10 exponent.toNat
  let down := num / den
  let below : Decimal := { digits := down, exponent := exponent }
  let above : Decimal := { digits := down + 1, exponent := exponent }
  if below.rank = rank then
    if above.rank = rank ∧ roundHalfEven num den = down + 1 then some above else some below
  else if above.rank = rank then some above
  else none

def exactDecimal (units : Nat) : Decimal := { digits := units * Nat.pow 5 1074, exponent := -1074 }

/-- The shortest decimal number that reads back as the finite magnitude of the given rank, which has
at most seventeen digits. -/
def shortestDecimal (rank : Nat) : Decimal :=
  let units := unitsOfRank rank
  let place := decimalPlace units
  ((List.range 17).findSome? fun (n : Nat) => nearestOnGrid? units rank (place - (n + 1))).getD
    (exactDecimal units)

end Campaign
