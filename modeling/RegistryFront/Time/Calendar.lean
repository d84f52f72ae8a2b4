/-!
# The calendar

Days are counted from 1970-01-01 in the Gregorian calendar, which is taken to hold at all times.  The
years run from -262143 to 262142.  Inside, a year begins in March, so that the leap day is its last.
-/

namespace RegistryFront.Time

structure Date where
  year : Int
  month : Nat
  day : Nat
  deriving DecidableEq, Repr

namespace Calendar

def minYear : Int := -262143

def maxYear : Int := 262142

def minDay : Int := -96465292

def maxDay : Int := 95026236

def isLeapYear (year : Int) : Bool :=
  year % 4 == 0 && (year % 100 != 0 || year % 400 == 0)

def daysInMonth (year : Int) (month : Nat) : Nat :=
  if month = 2 then (if isLeapYear year then 29 else 28)
  else if month = 4 ∨ month = 6 ∨ month = 9 ∨ month = 11 then 30
  else 31

def isDate (date : Date) : Bool :=
  minYear ≤ date.year && date.year ≤ maxYear && 1 ≤ date.month && date.month ≤ 12 &&
    1 ≤ date.day && date.day ≤ daysInMonth date.year date.month

def dayNumber (date : Date) : Int :=
  let year := if date.month ≤ 2 then date.year - 1 else date.year
  let month : Nat := (date.month + 9) % 12
  let dayOfYear : Nat := (153 * month + 2) / 5 + date.day - 1
  let yearOfEra := year % 400
  year / 400 * 146097 + (yearOfEra * 365 + yearOfEra / 4 - yearOfEra / 100 + dayOfYear) - 719468

def dateOf (number : Int) : Date :=
  let shifted := number + 719468
  let dayOfEra := shifted % 146097
  let yearOfEra :=
    (dayOfEra - dayOfEra / 1460 + dayOfEra / 36524 - dayOfEra / 146096) / 365
  let dayOfYear := dayOfEra - (365 * yearOfEra + yearOfEra / 4 - yearOfEra / 100)
  let month := (5 * dayOfYear + 2) / 153
  let day := dayOfYear - (153 * month + 2) / 5 + 1
  let year := shifted / 146097 * 400 + yearOfEra
  let civilMonth := if month < 10 then month + 3 else month - 9
  { year := if civilMonth ≤ 2 then year + 1 else year
    month := civilMonth.toNat
    day := day.toNat }

example : dayNumber ⟨1970, 1, 1⟩ = 0 := by decide
example : dayNumber ⟨minYear, 1, 1⟩ = minDay := by decide
example : dayNumber ⟨maxYear, 12, 31⟩ = maxDay := by decide
example : dateOf 11016 = ⟨2000, 2, 29⟩ := by decide

end Calendar

end RegistryFront.Time
