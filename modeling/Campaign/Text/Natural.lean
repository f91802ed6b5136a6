namespace Campaign.Text

def digits (n : Nat) : List Char := Nat.toDigits 10 n

def decimal (n : Nat) : String := String.ofList (digits n)

def paddedDigits (width n : Nat) : List Char :=
  List.replicate (width - (digits n).length) '0' ++ digits n

def digitsValue (text : List Char) : Nat := Nat.ofDigitChars 10 text 0

theorem digitsValue_digits (n : Nat) : digitsValue (digits n) = n :=
  Nat.ofDigitChars_toDigits (by decide) (by decide)

theorem isDigit_of_mem_digits {n : Nat} {c : Char} (member : c ∈ digits n) : c.isDigit = true :=
  Nat.isDigit_of_mem_toDigits (by decide) (by decide) member

def isNatural (text : List Char) : Bool := !text.isEmpty && text.all Char.isDigit

theorem isNatural_digits (n : Nat) : isNatural (digits n) = true := by
  simp only [isNatural, Bool.and_eq_true, List.all_eq_true]
  refine ⟨?_, fun c member => isDigit_of_mem_digits member⟩
  simp [digits, Nat.toDigits_ne_nil]

/-- The bound on counts: they fit 32 bits. -/
def countLimit : Nat := Nat.pow 2 32

def readDigits? (text : List Char) : Option Nat :=
  if isNatural text && digitsValue text < countLimit then some (digitsValue text) else none

/-- Reads a count that may have one plus sign in front. -/
def readCount? : List Char → Option Nat
  | '+' :: rest => readDigits? rest
  | text => readDigits? text

theorem readDigits?_digits {n : Nat} (small : n < countLimit) :
    readDigits? (digits n) = some n := by
  simp [readDigits?, isNatural_digits, digitsValue_digits, small]

end Campaign.Text
