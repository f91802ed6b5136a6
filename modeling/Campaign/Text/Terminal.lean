import Campaign.Text.Ranges

namespace Campaign.Text

/-- The code points of bell, backspace, form feed, escape and delete, and of the controls above
ASCII. -/
def controlRanges : List (Nat × Nat) :=
  [(0x07, 0x08), (0x0C, 0x0C), (0x1B, 0x1B), (0x7F, 0x9F)]

def isTerminalControl (c : Char) : Bool := inRanges controlRanges c

def shownChar (c : Char) : List Char :=
  if !isTerminalControl c then [c]
  else if c.toNat < 0x80 then
    ['\\', 'x', (c.toNat / 16).digitChar, (c.toNat % 16).digitChar]
  else ['\\', 'u', '\x7b'] ++ Nat.toDigits 16 c.toNat ++ ['\x7d']

def shown (text : String) : String := String.ofList (text.toList.flatMap shownChar)

end Campaign.Text
