import Backtest.Calendar

/-!
# Days as text

A day is written as year, month and day, or as year, week and weekday, with hyphens between the
parts or without.  The weekday may be missing and is then a Monday.
-/

namespace Backtest.Calendar

open Text

/-- A number of exactly so many ASCII digits at the front of a text. -/
def takeNumber? (count : Nat) (text : Chars) : Option (Nat × Chars) :=
  let shown := text.take count
  if shown.length = count ∧ shown.all Char.isDigit = true then
    some (shown.foldl (fun total c => total * 10 + (c.toNat - 48)) 0, text.drop count)
  else none

/-- The weekday of a day number; Monday is zero. -/
def weekdayOf (number : Int) : Nat := ((number + 3) % 7).toNat

/-- The number of the Monday that the first week of a year starts with: the week of its first
Thursday. -/
def firstMonday (year : Int) : Int :=
  let start := yearStart year
  let weekday := weekdayOf start
  if weekday ≤ 3 then start - weekday else start + 7 - weekday

/-- A year has 53 weeks if it starts on a Thursday, or on a Wednesday and is a leap year. -/
def hasLongLastWeek (year : Int) : Bool :=
  let weekday := weekdayOf (yearStart year)
  weekday == 3 || (weekday == 2 && isLeap year)

/-- The day of a week.  Weeks of the year zero belong to no month of the calendar. -/
def ofWeek (text : String) (year week weekday : Nat) : Outcome Day :=
  if week = 0 ∨ 53 < week ∨ (week = 53 ∧ hasLongLastWeek year = false) ∨ weekday = 0 ∨
      7 < weekday then
    .error (.badDay (.malformed text))
  else if year = 0 then .error (.badDay .month)
  else (Day.ofNumber (firstMonday year + (((week - 1) * 7 + (weekday - 1) : Nat) : Int))).check

/-- What follows the separator of a day's parts, if the day has separators. -/
def afterSeparator? (separated : Bool) (text : Chars) : Option Chars :=
  if separated then after? ['-'] text else some text

/-- The week and the weekday after a year. -/
def takeWeek? (separated : Bool) (text : Chars) : Option (Nat × Nat) := do
  let (week, rest) ← takeNumber? 2 text
  if rest.isEmpty then some (week, 1)
  else
    let (weekday, _) ← takeNumber? 1 (← afterSeparator? separated rest)
    some (week, weekday)

/-- The month and the day of the month after a year. -/
def takeMonthDay? (separated : Bool) (text : Chars) : Option (Nat × Nat) := do
  let (month, rest) ← takeNumber? 2 text
  let (day, _) ← takeNumber? 2 (← afterSeparator? separated rest)
  some (month, day)

/-- The day that a text stands for. -/
def dayOfText (text : String) : Outcome Day :=
  let malformed : Outcome Day := .error (.badDay (.malformed text))
  if ¬ [7, 8, 10].contains text.utf8ByteSize then malformed
  else match takeNumber? 4 text.toList with
    | none => malformed
    | some (year, rest) =>
        let separated := rest.head? == some '-'
        let rest := if separated then rest.drop 1 else rest
        match rest with
        | 'W' :: rest => match takeWeek? separated rest with
          | some (week, weekday) => ofWeek text year week weekday
          | none => malformed
        | rest => match takeMonthDay? separated rest with
          | some (month, day) => (Day.mk year month day).check
          | none => malformed

/-- The first millisecond of the day that a text stands for. -/
def dayStart (text : String) : Outcome Int := do pure (← dayOfText text).startMillis

end Backtest.Calendar
