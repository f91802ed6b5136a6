namespace Campaign.CommandLine

inductive Flag where
  | root
  | dialect
  | verbose
  | quiet
  | help
  | version
  | op
  | stripeCount
  | stripeSize
  | json
  | output
  | report
  deriving DecidableEq

namespace Flag

def name : Flag → String
  | .root => "root"
  | .dialect => "dialect"
  | .verbose => "verbose"
  | .quiet => "quiet"
  | .help => "help"
  | .version => "version"
  | .op => "op"
  | .stripeCount => "stripe-count"
  | .stripeSize => "stripe-size"
  | .json => "json"
  | .output => "output"
  | .report => "report"

def letter? : Flag → Option Char
  | .root => some 'r'
  | .dialect => some 'd'
  | .verbose => some 'v'
  | .quiet => some 'q'
  | .help => some 'h'
  | .version => some 'V'
  | .output => some 'o'
  | _ => none

def takesValue : Flag → Bool
  | .root | .dialect | .op | .stripeCount | .stripeSize | .output | .report => true
  | _ => false

def repeats (flag : Flag) : Bool := flag == .verbose

end Flag

structure Occurrence where
  flag : Flag
  value : String
  deriving DecidableEq

inductive Ending where
  | done
  /-- A word, and the arguments behind it. -/
  | word (text : String) (rest : List String)
  /-- An argument that has no meaning there. -/
  | invalid
  deriving DecidableEq

structure Scan where
  given : List Occurrence
  ending : Ending
  deriving DecidableEq

def Scan.after (scan : Scan) (given : List Occurrence) : Scan :=
  { scan with given := given ++ scan.given }

def Scan.stop (ending : Ending) : Scan := { given := [], ending := ending }

inductive Remainder where
  | none
  | valueOf (flag : Flag)
  | invalid
  deriving DecidableEq

structure Letters where
  given : List Occurrence
  remainder : Remainder

def Letters.invalid : Letters := { given := [], remainder := .invalid }

def Letters.valued (flag : Flag) (value : List Char) : Letters :=
  { given := [⟨flag, String.ofList value⟩], remainder := .none }

def Letters.pending (flag : Flag) : Letters := { given := [], remainder := .valueOf flag }

def isValue (text : String) : Bool := text.toList.head? != some '-' || text == "-"

/-- Reads letters behind a dash. What stands behind a letter that takes a value is that value, an
equals sign in front aside. -/
def readLetters (allowed : List Flag) : List Char → Letters
  | [] => { given := [], remainder := .none }
  | c :: rest =>
    match allowed.find? fun flag => flag.letter? = some c with
    | none => .invalid
    | some flag =>
      if flag.takesValue then
        match rest with
        | [] => .pending flag
        | '=' :: value => .valued flag value
        | value => .valued flag value
      else
        let more := readLetters allowed rest
        { more with given := ⟨flag, ""⟩ :: more.given }

def readName (allowed : List Flag) (text : List Char) : Letters :=
  let name := text.takeWhile (· != '=')
  match allowed.find? fun flag => flag.name.toList = name with
  | none => .invalid
  | some flag =>
    match flag.takesValue, text.dropWhile (· != '=') with
    | false, [] => { given := [⟨flag, ""⟩], remainder := .none }
    | false, _ => .invalid
    | true, [] => .pending flag
    | true, _ :: value => .valued flag value

def readFlags (allowed : List Flag) (text : List Char) : Letters :=
  match text with
  | '-' :: '-' :: name => readName allowed name
  | _ => readLetters allowed text.tail

/-- The flags at the beginning of a command line. Two dashes end it. -/
def scan (allowed : List Flag) : List String → Scan
  | [] => .stop .done
  | argument :: rest =>
    if isValue argument then .stop (.word argument rest)
    else if argument = "--" then .stop (if rest.isEmpty then .done else .invalid)
    else
      let letters := readFlags allowed argument.toList
      match letters.remainder with
      | .none => (scan allowed rest).after letters.given
      | .invalid => { given := letters.given, ending := .invalid }
      | .valueOf flag =>
        match rest with
        | [] => { given := letters.given, ending := .invalid }
        | value :: rest =>
          if isValue value then (scan allowed rest).after (letters.given ++ [⟨flag, value⟩])
          else { given := letters.given, ending := .invalid }

end Campaign.CommandLine
