import Campaign.Binary64.Rounding

namespace Campaign.Binary64

/-- A sum that is exactly zero is negative only when both terms are. -/
def add : Binary64 → Binary64 → Binary64
  | .nan, _ => .nan
  | _, .nan => .nan
  | .infinite a, .infinite b => if a = b then .infinite a else .nan
  | .infinite a, .finite _ _ => .infinite a
  | .finite _ _, .infinite b => .infinite b
  | .finite a x, .finite b y =>
    let left : Int := if a then -(unitsOfRank x : Int) else unitsOfRank x
    let right : Int := if b then -(unitsOfRank y : Int) else unitsOfRank y
    let sum := left + right
    if sum = 0 then ofUnits (a && b) 0 1 else ofUnits (sum < 0) sum.natAbs 1

def mul : Binary64 → Binary64 → Binary64
  | .nan, _ => .nan
  | _, .nan => .nan
  | .infinite a, .infinite b => .infinite (a != b)
  | .infinite a, .finite b y => if unitsOfRank y = 0 then .nan else .infinite (a != b)
  | .finite a x, .infinite b => if unitsOfRank x = 0 then .nan else .infinite (a != b)
  | .finite a x, .finite b y => ofUnits (a != b) (unitsOfRank x * unitsOfRank y) unitsInOne

def div : Binary64 → Binary64 → Binary64
  | .nan, _ => .nan
  | _, .nan => .nan
  | .infinite _, .infinite _ => .nan
  | .infinite a, .finite b _ => .infinite (a != b)
  | .finite a _, .infinite b => ofUnits (a != b) 0 1
  | .finite a x, .finite b y =>
    if unitsOfRank y = 0 then
      if unitsOfRank x = 0 then .nan else .infinite (a != b)
    else ofUnits (a != b) (unitsOfRank x * unitsInOne) (unitsOfRank y)

instance : Add Binary64 := ⟨add⟩

instance : Mul Binary64 := ⟨mul⟩

instance : Div Binary64 := ⟨div⟩

instance {n : Nat} : OfNat Binary64 n := ⟨ofNat n⟩

end Campaign.Binary64
