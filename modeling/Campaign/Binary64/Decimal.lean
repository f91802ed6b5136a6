import Campaign.Binary64.Rounding
import Campaign.Text.Natural

namespace Campaign

structure Decimal where
  digits : Nat
  exponent : Int
  deriving DecidableEq

namespace Decimal

def numerator (decimal : Decimal) : Nat :=
  decimal.digits * Nat.pow 10 decimal.exponent.toNat * unitsInOne

def denominator (decimal : Decimal) : Nat := Nat.pow 10 (-decimal.exponent).toNat

def rank (decimal : Decimal) : Nat := nearestRank decimal.numerator decimal.denominator

/-- The place before the leading digit: the value lies below ten to this power and, unless it is
zero, not below a tenth of that. -/
def leadingPlace (decimal : Decimal) : Int := (Text.digits decimal.digits).length + decimal.exponent

end Decimal

namespace Binary64

/-- The number of the given sign nearest to a decimal number. Values of `10 ^ 309` and more are
infinite and values below `10 ^ (-324)` zero, whatever the size of the exponent. -/
def ofDecimal (negative : Bool) (decimal : Decimal) : Binary64 :=
  if decimal.digits = 0 ∨ decimal.leadingPlace ≤ -324 then ofUnits negative 0 1
  else if 309 < decimal.leadingPlace then .infinite negative
  else ofUnits negative decimal.numerator decimal.denominator

end Binary64

def splitSign : List Char → Bool × List Char
  | '-' :: rest => (true, rest)
  | '+' :: rest => (false, rest)
  | text => (false, text)

def readExponent? : List Char → Option Int
  | [] => some 0
  | mark :: text =>
    let (negative, body) := splitSign text
    if (mark = 'e' || mark = 'E') && Text.isNatural body then
      some (if negative then -(Text.digitsValue body : Int) else Text.digitsValue body)
    else none

def readDecimal? (text : List Char) : Option Decimal :=
  let whole := text.takeWhile Char.isDigit
  let afterWhole := text.dropWhile Char.isDigit
  let (fraction, rest) := match afterWhole with
    | '.' :: afterPoint => (afterPoint.takeWhile Char.isDigit, afterPoint.dropWhile Char.isDigit)
    | _ => ([], afterWhole)
  if whole.isEmpty && fraction.isEmpty then none
  else (readExponent? rest).map fun exponent =>
    { digits := Text.digitsValue (whole ++ fraction), exponent := exponent - fraction.length }

namespace Binary64

/-- Reads a number: an optional sign and then `inf`, `infinity` or `nan` in letters of any case, or
digits with an optional point among or beside them and an optional exponent. -/
def ofText? (text : List Char) : Option Binary64 :=
  let (negative, body) := splitSign text
  match body.map Char.toLower with
  | ['n', 'a', 'n'] => some .nan
  | ['i', 'n', 'f'] => some (.infinite negative)
  | ['i', 'n', 'f', 'i', 'n', 'i', 't', 'y'] => some (.infinite negative)
  | _ => (readDecimal? body).map (ofDecimal negative)

end Binary64

end Campaign
