import Backtest.Series.Basic
import Backtest.Fault
import Backtest.Scalar

/-!
# Moving averages

* `simple` and `weighted` are defined from the bar on at which a full window has been seen;
* `exponential` and `wilder` smooth with a constant factor and start at the first defined value.

Window sums are taken relative to the latest value of the window, so that the average of a constant
series is exactly that constant, and two averages of it never cross by rounding.
-/

namespace Backtest.Series

open Arith

variable {α : Type} [Arith α]

/-- A function of the latest `period` values, undefined before there are so many. -/
def windowed (period : Nat) (value : α → List α → α) : List α → α
  | [] => nan
  | latest :: past =>
      let window := (latest :: past).take period
      if window.length < period then nan else value latest window

/-- The sum of the distances to a pivot, the oldest value first. -/
def deviationSum (pivot : α) (window : List α) : α :=
  window.foldr (fun x total => total + (x - pivot)) zero

/-- The mean distance of a window to its latest value. -/
def meanDeviation (period : Nat) (pivot : α) (window : List α) : α :=
  deviationSum pivot window / ofNat period

/-- The mean of the last `period` values. -/
def simple (period : Nat) (xs : Series α) : Series α :=
  trailing (windowed period fun pivot window => pivot + meanDeviation period pivot window) xs

/-- The sum of the distances to a pivot, weighted `period`, `period - 1`, … from the latest value
on. -/
def weightedSum (period : Nat) (pivot : α) (window : List α) : α :=
  window.zipIdx.foldl (fun total entry => total + (entry.1 - pivot) * ofNat (period - entry.2)) zero

/-- The sum of the weights of a window, halved in the arithmetic of the series. -/
def weightTotal (period : Nat) : Outcome α := do
  let twice : α ← Scalar.ofInt (period * (period + 1) : Nat)
  pure (twice / ofNat 2)

/-- The mean of the last `period` values with linearly falling weights. -/
def weighted (period : Nat) (xs : Series α) : Outcome (Series α) := do
  let total : α ← weightTotal period
  pure (trailing (windowed period fun pivot window =>
    pivot + weightedSum period pivot window / total) xs)

/-- One smoothing step: the first defined value starts the average, later ones pull it over. -/
def smoothStep (factor : α) (state : Option α) (x : α) : Option α × α :=
  match state with
  | none => if isNaN x then (none, nan) else (some x, x)
  | some last =>
      let next := last + factor * (x - last)
      (some next, next)

/-- Smooths a series with a constant factor, starting at its first defined value. -/
def smooth (factor : α) (xs : Series α) : Series α := scan (smoothStep factor) none xs

def exponential (period : Nat) (xs : Series α) : Series α :=
  smooth (ofNat 2 / ofNat (period + 1)) xs

def wilder (period : Nat) (xs : Series α) : Series α := smooth (one / ofNat period) xs

/-- The kinds of moving average that a setting can name. -/
inductive AverageKind where
  | simple
  | exponential
  | weighted
  deriving DecidableEq

/-- The kind with the given name in any case; every other text means the simple average. -/
def AverageKind.ofName (name : String) : AverageKind :=
  let upper := name.map Char.toUpper
  if upper = "EMA" then .exponential else if upper = "WMA" then .weighted else .simple

def average (kind : AverageKind) (period : Nat) (xs : Series α) : Outcome (Series α) :=
  match kind with
  | .simple => pure (simple period xs)
  | .exponential => pure (exponential period xs)
  | .weighted => weighted period xs

end Backtest.Series
