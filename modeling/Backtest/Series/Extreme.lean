import Backtest.Series.Basic

/-!
# Extremes and crossings

The highest and lowest defined value of a trailing window, and the bars at which one series crosses
another.
-/

namespace Backtest.Series

open Arith

variable {α : Type} [Arith α]

/-- The best defined value of a window in the sense of a test, the older of equal ones. -/
def bestOf (better : α → α → Bool) (window : List α) : Option α :=
  window.foldr (fun x best =>
    if isNaN x then best
    else match best with
      | none => some x
      | some old => if better x old then some x else some old) none

/-- The best defined value among the last `period` bars, or as many as there are. -/
def extreme (better : α → α → Bool) (period : Nat) (xs : Series α) : Series α :=
  trailing (fun past => (bestOf better (past.take period)).getD nan) xs

def highest (period : Nat) (xs : Series α) : Series α := extreme (fun x old => less old x) period xs

def lowest (period : Nat) (xs : Series α) : Series α := extreme less period xs

/-- The bars at which the first series comes from below the second to it or above it. -/
def crossover (xs ys : Series α) : Flags :=
  stepwise (fun last bar => match last with
    | none => false
    | some (x, y) => less x y && atMost bar.2 bar.1) (xs.zip ys)

/-- The bars at which the first series comes from above the second to it or below it. -/
def crossunder (xs ys : Series α) : Flags :=
  stepwise (fun last bar => match last with
    | none => false
    | some (x, y) => less y x && atMost bar.1 bar.2) (xs.zip ys)

end Backtest.Series
