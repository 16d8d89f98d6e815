import Backtest.Decimal.Double
import Backtest.Market.Timeframe
import Backtest.Prices
import Backtest.Random

/-!
# Synthetic prices

Bars of a random walk that starts at 100.  The variance of a return follows the last return and the
last variance; each bar opens near the close before it, and its volume grows with its move.
-/

namespace Backtest.Market

open Arith

section Returns

variable {α : Type} [Arith α]

/-- The parts of the variance of a return: a constant, a share of the last squared return, and a
share of the last variance. -/
structure Volatility (α : Type) where
  base : α
  reaction : α
  persistence : α
  initial : α

/-- The returns after one, given the variance and the return of the last bar. -/
def returnsFrom (volatility : Volatility α) (variance last : α) : List α → List α
  | [] => []
  | shock :: rest =>
      let next := volatility.base + volatility.reaction * (last * last) +
        volatility.persistence * variance
      let value := sqrt next * shock
      value :: returnsFrom volatility next value rest

/-- The returns that random shocks give; there must be a first one. -/
def returnsOf (volatility : Volatility α) : List α → Outcome (List α)
  | [] => .error .noSuchBar
  | shock :: rest =>
      let first := sqrt volatility.initial * shock
      .ok (first :: returnsFrom volatility volatility.initial first rest)

end Returns

def sampleVolatility : Volatility Float := ⟨4e-6, 0.10, 0.85, 0.015 * 0.015⟩

/-- `exp x - 1` without the loss of digits near zero. -/
def expMinusOne (x : Float) : Float :=
  let grown := x.exp
  if grown == 1.0 then x
  else if grown - 1.0 == -1.0 then -1.0
  else (grown - 1.0) * (x / grown.log)

/-- The first millisecond of 2024. -/
def sampleStart : Int := 1704067200000

/-- The first moments of bars from a start on.  They wrap around at 64 bits; the start must not lie
beyond. -/
def sampleTimes (start step : Int) (count : Nat) : Outcome (List Int) :=
  if fitsWord start then
    .ok ((List.range count).map fun (i : Nat) => (start + i * step).bmod (Nat.pow 2 64))
  else .error (.startTooLarge start)

/-- A count of bars from a seed. -/
def sample (count : Int) (seed : Int) (timeframe : String) (start : Int) :
    Outcome (List (Bar Float)) := do
  if count = 0 then return []
  let n := count.toNat
  let (shocks, state) := Random.series (fun u : Float => (u - 0.5) * 5.0) n (Random.start seed)
  let returns ← returnsOf sampleVolatility shocks
  let logs := Series.scan (fun total x => (total + x, total + x)) 0.0 returns
  let closes := logs.map fun x => 100.0 * x.exp
  let (noise, state) := Random.series (fun u : Float => 0.002 * (2.0 * u - 1.0)) n state
  let opens := List.zipWith (fun close x => close * (1.0 + x)) (100.0 :: closes) noise
  let (upper, state) := Random.series (fun u : Float => 0.008 * u) n state
  let (lower, state) := Random.series (fun u : Float => 0.008 * u) n state
  let (sizes, _) := Random.series (fun u : Float => 6.0 + u) n state
  let highs := List.zipWith (fun body wick => body * (1.0 + wick))
    (List.zipWith maximum opens closes) upper
  let lows := List.zipWith (fun body wick => body * (1.0 - wick))
    (List.zipWith minimum opens closes) lower
  let volumes := List.zipWith (fun size x => size * (1.0 + (expMinusOne x).abs / 0.004))
    sizes returns
  let times ← sampleTimes start (barMillis timeframe) n
  return (times.zip (opens.zip (highs.zip (lows.zip (closes.zip volumes))))).map
    fun (t, o, h, l, c, v) => ⟨t, o, h, l, c, v⟩

end Backtest.Market
