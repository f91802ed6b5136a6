import Campaign.Text.Natural

namespace Campaign

def isLeapYear (year : Nat) : Bool := year % 4 == 0 && (year % 100 != 0 || year % 400 == 0)

def daysInMonth (year month : Nat) : Nat :=
  if month = 2 then if isLeapYear year then 29 else 28
  else if month = 4 ∨ month = 6 ∨ month = 9 ∨ month = 11 then 30
  else 31

structure CalendarDate where
  year : Nat
  month : Nat
  day : Nat
  month_bounds : 1 ≤ month ∧ month ≤ 12
  day_bounds : 1 ≤ day ∧ day ≤ daysInMonth year month
  deriving DecidableEq

namespace CalendarDate

def ofNumbers? (year month day : Nat) : Option CalendarDate :=
  if month_bounds : 1 ≤ month ∧ month ≤ 12 then
    if day_bounds : 1 ≤ day ∧ day ≤ daysInMonth year month then
      some { year := year, month := month, day := day, month_bounds := month_bounds,
             day_bounds := day_bounds }
    else none
  else none

def readPart? (width : Nat) (text : List Char) : Option Nat :=
  if Text.isNatural text && text.length ≤ width then some (Text.digitsValue text) else none

def ofText? (text : List Char) : Option CalendarDate :=
  match text.splitOn '-' with
  | [year, month, day] => do
    let year ← readPart? 4 year
    let month ← readPart? 2 month
    let day ← readPart? 2 day
    ofNumbers? year month day
  | _ => none

def text (date : CalendarDate) : String :=
  String.ofList (Text.paddedDigits 4 date.year ++ '-' :: Text.paddedDigits 2 date.month ++
    '-' :: Text.paddedDigits 2 date.day)

/-- The day's place among all days, with room for 31 days in every month. -/
def place (date : CalendarDate) : Nat := (date.year * 12 + date.month) * 32 + date.day

def earlier (left right : CalendarDate) : CalendarDate :=
  if left.place ≤ right.place then left else right

def later (left right : CalendarDate) : CalendarDate :=
  if left.place ≤ right.place then right else left

end CalendarDate

end Campaign
