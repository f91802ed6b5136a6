import Campaign.Binary64.Shortest

namespace Campaign.Json

def escaped (c : Char) : List Char :=
  match c with
  | '"' => ['\\', '"']
  | '\\' => ['\\', '\\']
  | '\x08' => ['\\', 'b']
  | '\x0c' => ['\\', 'f']
  | '\n' => ['\\', 'n']
  | '\r' => ['\\', 'r']
  | '\t' => ['\\', 't']
  | _ =>
    if c.toNat < 0x20 then
      ['\\', 'u', '0', '0', (c.toNat / 16).digitChar, (c.toNat % 16).digitChar]
    else [c]

def string (text : String) : List Char := '"' :: text.toList.flatMap escaped ++ ['"']

/-- Digits times a power of ten, where the leading digit stands at `exponent`: in positional
notation with at least one fraction digit from `10 ^ (-5)` to below `10 ^ 16`, else with an
exponent. -/
def decimal (digits : List Char) (exponent : Int) : List Char :=
  if exponent < -5 ∨ 15 < exponent then
    digits.take 1 ++ (if digits.length ≤ 1 then [] else '.' :: digits.drop 1) ++
      'e' :: (if exponent < 0 then '-' else '+') :: Text.digits exponent.natAbs
  else if exponent < 0 then
    '0' :: '.' :: List.replicate (exponent.natAbs - 1) '0' ++ digits
  else
    let whole := exponent.toNat + 1
    if digits.length ≤ whole then
      digits ++ List.replicate (whole - digits.length) '0' ++ ['.', '0']
    else digits.take whole ++ '.' :: digits.drop whole

def significantDigits (n : Nat) : List Char :=
  ((Text.digits n).reverse.dropWhile (· = '0')).reverse

def magnitude (rank : Nat) : List Char :=
  if rank = 0 then ['0', '.', '0']
  else
    let shortest := shortestDecimal rank
    decimal (significantDigits shortest.digits) (shortest.leadingPlace - 1)

def number : Binary64 → List Char
  | .finite negative rank => (if negative then ['-'] else []) ++ magnitude rank
  | _ => ['n', 'u', 'l', 'l']

def count (n : Nat) : List Char := Text.digits n

def object (fields : List (String × List Char)) : List Char :=
  '\x7b' :: List.intercalate [','] (fields.map fun (key, value) => string key ++ ':' :: value) ++
    ['\x7d']

def linesBetween (opening closing : Char) (depth : Nat) (items : List (List Char)) : List Char :=
  if items.isEmpty then [opening, closing]
  else
    let indented := items.map (List.replicate (2 * depth + 2) ' ' ++ ·)
    opening :: '\n' :: List.intercalate [',', '\n'] indented ++
      '\n' :: List.replicate (2 * depth) ' ' ++ [closing]

def arrayLines (depth : Nat) (items : List (List Char)) : List Char :=
  linesBetween '[' ']' depth items

def objectLines (depth : Nat) (fields : List (String × List Char)) : List Char :=
  linesBetween '\x7b' '\x7d' depth
    (fields.map fun (key, value) => string key ++ ':' :: ' ' :: value)

end Campaign.Json
