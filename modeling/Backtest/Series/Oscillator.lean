import Backtest.Series.Average

/-!
# Oscillators

The relative strength index after Wilder, the difference of two exponential averages with its signal
line, and the stochastic position of a value between the extremes of its window.
-/

namespace Backtest.Series

open Arith

variable {α : Type} [Arith α]

/-- The strength of gains against losses, from 0 to 100. -/
def strengthIndex (gain loss : α) : α :=
  if same loss zero then ofNat 100 else ofNat 100 - ofNat 100 / (one + gain / loss)

/-- What the strength index remembers: how many bars it has seen, the last value, and the gains and
losses, which are sums up to bar `period` and Wilder averages from there on. -/
structure StrengthState (α : Type) where
  seen : Nat
  last : α
  gain : α
  loss : α

def strengthStep (period : Nat) (state : StrengthState α) (x : α) : StrengthState α × α :=
  if state.seen = 0 then (⟨1, x, state.gain, state.loss⟩, nan)
  else
    let change := x - state.last
    let rises := less zero change
    if state.seen ≤ period then
      let gain := if rises then state.gain + change else state.gain
      let loss := if rises then state.loss else state.loss - change
      if state.seen = period then
        let gain := gain / ofNat period
        let loss := loss / ofNat period
        (⟨state.seen + 1, x, gain, loss⟩, strengthIndex gain loss)
      else (⟨state.seen + 1, x, gain, loss⟩, nan)
    else
      let up := if rises then change else zero
      let down := if less change zero then -change else zero
      let gain := (state.gain * ofNat (period - 1) + up) / ofNat period
      let loss := (state.loss * ofNat (period - 1) + down) / ofNat period
      (⟨state.seen + 1, x, gain, loss⟩, strengthIndex gain loss)

/-- The relative strength index, defined from bar `period` on and 100 where there is no loss. -/
def relativeStrength (period : Nat) (xs : Series α) : Series α :=
  scan (strengthStep period) ⟨0, zero, zero, zero⟩ xs

/-- The difference of two averages, its own average, and the difference of both. -/
structure Convergence (α : Type) where
  line : Series α
  signal : Series α
  histogram : Series α

/-- The signal line starts at the first defined value of the difference. -/
def convergence (fast slow signal : Nat) (xs : Series α) : Convergence α :=
  let line := List.zipWith (· - ·) (exponential fast xs) (exponential slow xs)
  let smoothed := exponential signal line
  ⟨line, smoothed, List.zipWith (· - ·) line smoothed⟩

/-- One bar as the stochastic sees it. -/
structure Extent (α : Type) where
  source : α
  high : α
  low : α

def highestOf (window : List (Extent α)) : α :=
  window.foldr (fun bar best => if less best bar.high then bar.high else best) (-infinity)

def lowestOf (window : List (Extent α)) : α :=
  window.foldr (fun bar best => if less bar.low best then bar.low else best) infinity

/-- The position of the latest value between the extremes of the window, in percent. -/
def stochasticOf (period : Nat) : List (Extent α) → α
  | [] => nan
  | latest :: past =>
      let window := (latest :: past).take period
      let high := highestOf window
      let low := lowestOf window
      if same high low then ofNat 100 else (latest.source - low) / (high - low) * ofNat 100

/-- The stochastic of a source against the highs and lows of the last `period` bars, or of as many
as there are; 100 where the window has no extent. -/
def stochastic (period : Nat) (source high low : Series α) : Series α :=
  trailing (stochasticOf period)
    (List.zipWith (fun x range => ⟨x, range.1, range.2⟩) source (high.zip low))

end Backtest.Series
