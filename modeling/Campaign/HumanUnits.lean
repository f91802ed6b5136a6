import Campaign.Binary64.Arithmetic
import Campaign.Binary64.Fixed

namespace Campaign

inductive UnitStyle where
  | compact
  | detail
  deriving DecidableEq

inductive BinaryUnit where
  | one
  | kibi
  | mebi
  | gibi
  deriving DecidableEq

namespace BinaryUnit

def bytes : BinaryUnit → Nat
  | .one => 1
  | .kibi => 1024
  | .mebi => 1024 * 1024
  | .gibi => 1024 * 1024 * 1024

def suffix : UnitStyle → BinaryUnit → String
  | .compact, .one => "B"
  | .compact, .kibi => "K"
  | .compact, .mebi => "M"
  | .compact, .gibi => "G"
  | .detail, .one => " B"
  | .detail, .kibi => " KiB"
  | .detail, .mebi => " MiB"
  | .detail, .gibi => " GiB"

def ofBytes (bytes : Nat) : BinaryUnit :=
  if gibi.bytes ≤ bytes then .gibi
  else if mebi.bytes ≤ bytes then .mebi
  else if kibi.bytes ≤ bytes then .kibi
  else .one

end BinaryUnit

/-- A number of bytes: whole below one KiB, else with one decimal place in the largest unit that
goes into it. -/
def bytesText (bytes : Nat) (style : UnitStyle) : String :=
  let unit := BinaryUnit.ofBytes bytes
  let number :=
    if unit = .one then Text.decimal bytes
    else (Binary64.ofNat bytes / Binary64.ofNat unit.bytes).toFixed 1
  number ++ unit.suffix style

/-- A rate given in MiB/s, with one decimal place; in GiB/s from 1024 MiB/s on, and a bare zero for
what is not positive. -/
def rateText (rate : Binary64) (style : UnitStyle) : String :=
  if rate.atMost .zero then "0"
  else if (Binary64.ofNat 1024).atMost rate then
    (rate / Binary64.ofNat 1024).toFixed 1 ++ BinaryUnit.gibi.suffix style ++ "/s"
  else rate.toFixed 1 ++ BinaryUnit.mebi.suffix style ++ "/s"

def figureText (figure : Option Binary64) (width places : Nat) : String :=
  Text.padLeft width (match figure with
    | some value => value.toFixed places
    | none => "-")

end Campaign
