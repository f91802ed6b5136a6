import Campaign.Path
import Campaign.Text.Natural
import Campaign.Text.Quoted

namespace Campaign

inductive SystemError where
  | noEntry
  | notDirectory
  | isDirectory
  | nameTooLong
  | tooManyLinks
  deriving DecidableEq

namespace SystemError

def number : SystemError → Nat
  | .noEntry => 2
  | .notDirectory => 20
  | .isDirectory => 21
  | .nameTooLong => 36
  | .tooManyLinks => 40

def text : SystemError → String
  | .noEntry => "No such file or directory"
  | .notDirectory => "Not a directory"
  | .isDirectory => "Is a directory"
  | .nameTooLong => "File name too long"
  | .tooManyLinks => "Too many levels of symbolic links"

def message (error : SystemError) : String :=
  error.text ++ " (os error " ++ Text.decimal error.number ++ ")"

end SystemError

inductive Fault where
  | fileMissing (path : Path)
  | directoryMissing (path : Path)
  | refused (error : SystemError)
  | notText
  deriving DecidableEq

def Fault.message : Fault → String
  | .fileMissing path => "file not found: " ++ Text.quoted path.text
  | .directoryMissing path => "directory not found: " ++ Text.quoted path.text
  | .refused error => error.message
  | .notText => "stream did not contain valid UTF-8"

/-- Read access to a tree of files. Following listed directories that are no links never goes on
for ever: each lies deeper than the one that lists it, and `room` bounds the depth that is left. -/
structure FileSystem where
  readText : Path → Except Fault String
  list : Path → Except Fault (List Path)
  isDirectory : Path → Bool
  isLink : Path → Bool
  /-- The size of a file in bytes. -/
  size : Path → Except Fault Nat
  room : Path → Nat
  room_lt : ∀ {directory : Path} {entries : List Path} {entry : Path},
    list directory = .ok entries → entry ∈ entries → isDirectory entry = true →
    isLink entry = false → room entry < room directory

end Campaign
