import Backtest.Fault

/-!
# The calendar

Days of the proleptic Gregorian calendar in UTC, counted from 1970-01-01, and moments in
milliseconds from that midnight.
-/

namespace Backtest.Calendar

/-- A day by its year, its month from one to twelve, and its day of the month from one. -/
structure Day where
  year : Int
  month : Nat
  day : Nat
  deriving DecidableEq, Repr

def millisPerDay : Int := 86400000

/-- A leap year: divisible by four, and by four hundred if by one hundred. -/
def isLeap (year : Int) : Bool := year % 4 == 0 && (year % 100 != 0 || year % 400 == 0)

/-- The lengths of the months. -/
def monthLengths (leap : Bool) : List Nat :=
  [31, if leap then 29 else 28, 31, 30, 31, 30, 31, 31, 30, 31, 30, 31]

def monthLength (year : Int) (month : Nat) : Nat := (monthLengths (isLeap year))[month - 1]?.getD 0

/-- The number of days from the first day of year one to the first day of a year. -/
def daysBeforeYear (year : Int) : Int :=
  let past := year - 1
  365 * past + Int.fdiv past 4 - Int.fdiv past 100 + Int.fdiv past 400

/-- The number of the first day of a year, counted from 1970-01-01. -/
def yearStart (year : Int) : Int := daysBeforeYear year - daysBeforeYear 1970

/-- The number of days before the first day of a month in its year. -/
def daysBeforeMonth (year : Int) (month : Nat) : Nat :=
  ((monthLengths (isLeap year)).take (month - 1)).foldl (· + ·) 0

/-- The number of a day, counted from 1970-01-01. -/
def Day.number (day : Day) : Int :=
  yearStart day.year + daysBeforeMonth day.year day.month + (day.day - 1 : Nat)

/-- The year that the day of a number falls in.  The mean length of a year gives it up to one. -/
def yearOf (number : Int) : Int :=
  let guess := Int.fdiv (number * 400) 146097 + 1970
  ([guess + 1, guess].find? fun year => yearStart year ≤ number).getD (guess - 1)

/-- The month and the day of the month of a day of the year that counts from zero; `month` is the
first month that `lengths` belongs to. -/
def monthOf (month : Nat) : List Nat → Nat → Nat × Nat
  | [], rest => (month, rest + 1)
  | length :: others, rest =>
      if rest < length then (month, rest + 1) else monthOf (month + 1) others (rest - length)

/-- The day of a number, counted from 1970-01-01. -/
def Day.ofNumber (number : Int) : Day :=
  let year := yearOf number
  let place := monthOf 1 (monthLengths (isLeap year)) (number - yearStart year).toNat
  ⟨year, place.1, place.2⟩

/-- The day that a moment falls on. -/
def Day.ofMillis (millis : Int) : Day := Day.ofNumber (Int.fdiv millis millisPerDay)

/-- The moment at which a day starts. -/
def Day.startMillis (day : Day) : Int := day.number * millisPerDay

/-- A day of the calendar between the years 1 and 9999. -/
def Day.check (day : Day) : Outcome Day :=
  if day.year < 1 ∨ 9999 < day.year then .error (.badDay (.year day.year.toNat))
  else if day.month < 1 ∨ 12 < day.month then .error (.badDay .month)
  else if day.day < 1 ∨ monthLength day.year day.month < day.day then .error (.badDay .day)
  else .ok day

end Backtest.Calendar
