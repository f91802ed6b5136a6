namespace Campaign.Text

/-- The characters of the Unicode property White_Space. -/
def isBlank (c : Char) : Bool :=
  let n := c.toNat
  (9 ≤ n && n ≤ 13) || n == 0x20 || n == 0x85 || n == 0xA0 || n == 0x1680 ||
    (0x2000 ≤ n && n ≤ 0x200A) || n == 0x2028 || n == 0x2029 || n == 0x202F || n == 0x205F ||
    n == 0x3000

def trim (text : List Char) : List Char :=
  ((text.dropWhile isBlank).reverse.dropWhile isBlank).reverse

@[simp] theorem trim_nil : trim [] = [] := rfl

def words (text : List Char) : List (List Char) :=
  (text.splitOnP isBlank).filter (!·.isEmpty)

def contentLines (text : List Char) : List (List Char) :=
  ((text.splitOn '\n').map trim).filter (!·.isEmpty)

def commaFields (line : List Char) : List (List Char) :=
  (line.splitOn ',').map trim

def lower (text : String) : String := String.ofList (text.toList.map Char.toLower)

def upper (text : String) : String := String.ofList (text.toList.map Char.toUpper)

def trimmed (text : String) : String := String.ofList (trim text.toList)

end Campaign.Text
