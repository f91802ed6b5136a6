import Campaign.CalendarDate
import Campaign.Text.Natural
import Campaign.Text.ScriptDigit
import Campaign.Text.WordCharacter

namespace Campaign

/-- What the name of an output file says of its run: `out-` and then label, stripe count, stripe
size, date, host and rank with dashes between them, and after dots an extension and a sequence
number. Only the label may hold dashes, apart from the two in the date. -/
structure RunName where
  label : String
  stripeCount : Nat
  stripeSize : String
  date : String
  host : String
  rank : Nat
  ext : String
  sequence : Nat
  deriving DecidableEq

structure UnrecognizedName where
  name : String
  deriving DecidableEq

def UnrecognizedName.message (error : UnrecognizedName) : String :=
  "unrecognized output filename: " ++ error.name

namespace RunName

def isLabel (text : List Char) : Bool := text.all fun c => c.isAlphanum || c == '-'

def isDigitRun (text : List Char) : Bool := !text.isEmpty && text.all Text.isScriptDigit

def isSize (text : List Char) : Bool :=
  isDigitRun text.dropLast && text.getLast?.any fun c => "KMGTB".toList.contains c

def isHost (text : List Char) : Bool := !text.isEmpty && text.all Char.isAlphanum

def isExtension (text : List Char) : Bool := !text.isEmpty && text.all Text.isWordCharacter

def ofFields? (label count size year month day host rank ext sequence : List Char) :
    Option RunName :=
  if isLabel label && isSize size && isDigitRun year && isDigitRun month && isDigitRun day &&
      isHost host && isExtension ext then do
    let count ← Text.readDigits? count
    let rank ← Text.readDigits? rank
    let sequence ← Text.readDigits? sequence
    return {
      label := String.ofList label
      stripeCount := count
      stripeSize := String.ofList size
      date := String.ofList (year ++ '-' :: month ++ '-' :: day)
      host := String.ofList host
      rank := rank
      ext := String.ofList ext
      sequence := sequence }
  else none

/-- Reads a name, given as its parts between dashes in reverse and what stands behind its dots. -/
def ofParts? (parts : List (List Char)) (ext sequence : List Char) : Option RunName :=
  match parts with
  | rank :: host :: day :: month :: year :: size :: count :: lead =>
    match lead.reverse with
    | ['o', 'u', 't'] :: first :: more =>
      ofFields? (List.intercalate ['-'] (first :: more)) count size year month day host rank ext
        sequence
    | _ => none
  | _ => none

def ofText? (name : List Char) : Option RunName :=
  match name.splitOn '.' with
  | [stem, ext, sequence] => ofParts? (stem.splitOn '-').reverse ext sequence
  | _ => none

def recognize (name : String) : Except UnrecognizedName RunName :=
  match ofText? name.toList with
  | some runName => .ok runName
  | none => .error { name := name }

def text (name : RunName) : String :=
  "out-" ++ name.label ++ "-" ++ Text.decimal name.stripeCount ++ "-" ++ name.stripeSize ++ "-" ++
    name.date ++ "-" ++ name.host ++ "-" ++ Text.decimal name.rank ++ "." ++ name.ext ++ "." ++
    Text.decimal name.sequence

def runDate? (name : RunName) : Option CalendarDate := CalendarDate.ofText? name.date.toList

end RunName

end Campaign
