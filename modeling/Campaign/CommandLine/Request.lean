import Campaign.Cell
import Campaign.CommandLine.Flag
import Campaign.Dialect
import Campaign.Operation
import Campaign.Path

namespace Campaign.CommandLine

structure Selection where
  op : Operation
  stripes : StripeCount
  size : StripeSize
  json : Bool
  deriving DecidableEq

inductive Command where
  | tree
  | series (selection : Selection)
  | exporting (output : Option Path)
  | summary (report : Path) (selection : Selection)
  deriving DecidableEq

structure Request where
  root : Path
  dialect : Dialect
  command : Command
  deriving DecidableEq

inductive Invocation where
  | run (request : Request)
  | version
  | help
  /-- It breaks the rules for command lines. -/
  | rejected
  deriving DecidableEq

inductive CommandName where
  | tree
  | series
  | exporting
  | summary
  deriving DecidableEq

namespace CommandName

def all : List CommandName := [.tree, .series, .exporting, .summary]

def text : CommandName → String
  | .tree => "tree"
  | .series => "series"
  | .exporting => "export"
  | .summary => "summary"

def ofText? (text : String) : Option CommandName := all.find? fun name => name.text = text

def flags : CommandName → List Flag
  | .tree => [.verbose, .quiet, .help]
  | .series => [.op, .stripeCount, .stripeSize, .json, .verbose, .quiet, .help]
  | .exporting => [.output, .verbose, .quiet, .help]
  | .summary => [.report, .op, .stripeCount, .stripeSize, .json, .verbose, .quiet, .help]

end CommandName

def generalFlags : List Flag := [.root, .dialect, .verbose, .quiet, .help, .version]

def defaultRoot : String := "./output"

def Occurrence.isValid (occurrence : Occurrence) : Bool :=
  match occurrence.flag with
  | .root | .output | .report => !occurrence.value.isEmpty
  | .dialect => (Dialect.ofText occurrence.value).toOption.isSome
  | .op => (Operation.ofText occurrence.value).toOption.isSome
  | .stripeCount => (StripeCount.ofText occurrence.value).toOption.isSome
  | .stripeSize => (StripeSize.ofText occurrence.value).toOption.isSome
  | _ => true

/-- What the flags come to, read in order: the first one that asks for help or the version, or is
not valid, or is given again, decides; otherwise they go through. -/
def decide? (seen : List Flag) : List Occurrence → Option Invocation
  | [] => none
  | occurrence :: rest =>
    if occurrence.flag = .help then some .help
    else if occurrence.flag = .version then some .version
    else if !occurrence.isValid then some .rejected
    else if seen.contains occurrence.flag && !occurrence.flag.repeats then some .rejected
    else decide? (occurrence.flag :: seen) rest

def valueOf? (given : List Occurrence) (flag : Flag) : Option String :=
  (given.find? fun occurrence => occurrence.flag = flag).map (·.value)

def selection? (given : List Occurrence) : Option Selection := do
  let op ← (Operation.ofText (← valueOf? given .op)).toOption
  let stripes ← (StripeCount.ofText (← valueOf? given .stripeCount)).toOption
  let size ← (StripeSize.ofText (← valueOf? given .stripeSize)).toOption
  return { op := op, stripes := stripes, size := size, json := (valueOf? given .json).isSome }

def command? (name : CommandName) (given : List Occurrence) : Option Command :=
  match name with
  | .tree => some .tree
  | .series => (selection? given).map .series
  | .exporting => some (.exporting ((valueOf? given .output).map .ofText))
  | .summary => do
    let report ← valueOf? given .report
    return .summary (.ofText report) (← selection? given)

def request? (environment : Option String) (given : List Occurrence) (command : Command) :
    Option Request := do
  let root := (valueOf? given .root).getD (environment.getD defaultRoot)
  let dialect ← match valueOf? given .dialect with
    | none => some .ior
    | some name => (Dialect.ofText name).toOption
  if root.isEmpty then none
  else return { root := .ofText root, dialect := dialect, command := command }

def readCommand (environment : Option String) (general : List Occurrence) (name : CommandName)
    (arguments : List String) : Invocation :=
  let scanned := scan name.flags arguments
  match decide? [] scanned.given, scanned.ending with
  | some invocation, _ => invocation
  | none, .done =>
    match (command? name scanned.given).bind (request? environment general) with
    | some request => .run request
    | none => .rejected
  | none, _ => .rejected

/-- Reads what stands behind the word that asks for help: at most the name of a command. -/
def readHelp (topics : List String) : Invocation :=
  match topics with
  | [] => .help
  | [topic] => if topic = "help" ∨ (CommandName.ofText? topic).isSome then .help else .rejected
  | _ => .rejected

def read (environment : Option String) (arguments : List String) : Invocation :=
  let scanned := scan generalFlags arguments
  match decide? [] scanned.given, scanned.ending with
  | some invocation, _ => invocation
  | none, .word word rest =>
    if word = "help" then readHelp rest
    else match CommandName.ofText? word with
      | some name => readCommand environment scanned.given name rest
      | none => .rejected
  | none, _ => .rejected

end Campaign.CommandLine
