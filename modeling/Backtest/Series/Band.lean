import Backtest.Series.Average

/-!
# Bands and ranges

Bands at a multiple of the standard deviation around the simple average, and the true range of a bar
with its exponential average.
-/

namespace Backtest.Series

open Arith

variable {α : Type} [Arith α]

structure Bands (α : Type) where
  upper : Series α
  basis : Series α
  lower : Series α

/-- The population standard deviation of a window, from the distances to its latest value. -/
def deviation (period : Nat) (pivot : α) (window : List α) : α :=
  let mean := meanDeviation period pivot window
  let squares := window.foldr
    (fun x total => total + (x - pivot - mean) * (x - pivot - mean)) zero
  sqrt (squares / ofNat period)

/-- The simple average with a line above and one below it, `width` standard deviations away. -/
def bands (period : Nat) (width : α) (xs : Series α) : Bands α :=
  let basisOf (pivot : α) (window : List α) : α := pivot + meanDeviation period pivot window
  ⟨trailing (windowed period fun pivot window =>
      basisOf pivot window + width * deviation period pivot window) xs,
    trailing (windowed period basisOf) xs,
    trailing (windowed period fun pivot window =>
      basisOf pivot window - width * deviation period pivot window) xs⟩

/-- The extent of a bar together with the close before it. -/
def trueRangeOf (last : Option (α × α × α)) (bar : α × α × α) : α :=
  match last with
  | none => bar.1 - bar.2.1
  | some (_, _, close) =>
      maximum (bar.1 - bar.2.1) (maximum (abs (bar.1 - close)) (abs (bar.2.1 - close)))

def trueRange (high low close : Series α) : Series α :=
  stepwise trueRangeOf (high.zip (low.zip close))

/-- The exponential average of the true range. -/
def averageRange (period : Nat) (high low close : Series α) : Series α :=
  exponential period (trueRange high low close)

end Backtest.Series
