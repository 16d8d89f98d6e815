import Backtest.Calendar
import Backtest.Simulation.Trade
import Backtest.Summary.Sum

/-!
# Monthly results

The trades of a run by the month of their exit in UTC, the oldest month first.  The calendar of
these results has a first and a last year; a trade that is closed outside it has no month.
-/

namespace Backtest

structure MonthlyRow (α : Type) where
  year : Int
  month : Nat
  trades : Nat
  wins : Nat
  percent : α
  dollars : α
  points : α

namespace Summary

open Calendar

variable {α : Type} [Arith α]

/-- The year and the month that a trade is closed in. -/
def monthOfExit (trade : Trade α) : Int × Nat :=
  let day := Day.ofMillis trade.exitTimestamp
  (day.year, day.month)

def firstYear : Int := -262143

def lastYear : Int := 262142

/-- A trade is closed in a year of the calendar. -/
def isDated (trade : Trade α) : Bool :=
  let year := (monthOfExit trade).1
  firstYear ≤ year && year ≤ lastYear

/-- One month comes before another one. -/
def earlierMonth (first second : Int × Nat) : Bool :=
  first.1 < second.1 || (first.1 == second.1 && first.2 < second.2)

/-- Puts a month into an increasing list of months, once. -/
def insertMonth (month : Int × Nat) : List (Int × Nat) → List (Int × Nat)
  | [] => [month]
  | first :: rest =>
      if earlierMonth month first then month :: first :: rest
      else if month = first then first :: rest
      else first :: insertMonth month rest

/-- The months in which trades are closed, in order. -/
def monthsOf (trades : List (Trade α)) : List (Int × Nat) :=
  trades.foldl (fun months trade => insertMonth (monthOfExit trade) months) []

/-- An undefined profit counts as a win here. -/
def isMonthlyWin (trade : Trade α) : Bool :=
  Arith.less Arith.zero trade.percent || Arith.isNaN trade.percent

/-- The row of a month. -/
def monthlyRow (trades : List (Trade α)) (month : Int × Nat) : MonthlyRow α :=
  let own := trades.filter fun trade => monthOfExit trade = month
  { year := month.1
    month := month.2
    trades := own.length
    wins := (own.filter isMonthlyWin).length
    percent := compensatedSum (own.map (·.percent))
    dollars := compensatedSum (own.map (·.dollars))
    points := compensatedSum (own.map (·.points)) }

/-- The rows of the months in which trades are closed, if all of these have a month. -/
def monthly (trades : List (Trade α)) : Outcome (List (MonthlyRow α)) :=
  if trades.all isDated then .ok ((monthsOf trades).map (monthlyRow trades))
  else .error .outsideCalendar

end Summary

end Backtest
