import Campaign.Binary64.Rounding
import Campaign.Text.Column
import Campaign.Text.Natural

namespace Campaign

def placedText (places n : Nat) : List Char :=
  Text.digits (n / Nat.pow 10 places) ++
    if places = 0 then [] else '.' :: Text.paddedDigits places (n % Nat.pow 10 places)

namespace Binary64

/-- The text with `places` digits after the point. -/
def fixedText (places : Nat) : Binary64 → List Char
  | .nan => ['N', 'a', 'N']
  | .infinite negative => (if negative then ['-'] else []) ++ ['i', 'n', 'f']
  | .finite negative rank =>
    (if negative then ['-'] else []) ++
      placedText places (roundHalfEven (unitsOfRank rank * Nat.pow 10 places) unitsInOne)

def toFixed (places : Nat) (x : Binary64) : String := String.ofList (x.fixedText places)

end Binary64

end Campaign
