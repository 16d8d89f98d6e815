import Backtest.Simulation.Trade
import Backtest.Summary.Sum

/-!
# Performance metrics

Ten numbers that sum up a run: returns, risk and trade statistics.  Percentages are rounded to two
places, ratios to three.  A run without trades has all of them zero.
-/

namespace Backtest

open Arith

structure Metrics (α : Type) where
  totalReturn : α
  annualizedReturn : α
  maxDrawdown : α
  sharpe : α
  winRate : α
  trades : Int
  profitFactor : α
  averageTrade : α
  dollars : α
  points : α

namespace Metrics

variable {α : Type} [Arith α]

def none : Metrics α :=
  ⟨zero, zero, zero, zero, zero, 0, zero, zero, zero, zero⟩

/-- The metrics with their names, in order; the number of trades as a number. -/
def entries (metrics : Metrics α) : List (String × α) :=
  [("total_return_pct", metrics.totalReturn), ("annualized_return_pct", metrics.annualizedReturn),
    ("max_drawdown_pct", metrics.maxDrawdown), ("sharpe_ratio", metrics.sharpe),
    ("win_rate", metrics.winRate), ("total_trades", (ofInt? metrics.trades).getD nan),
    ("profit_factor", metrics.profitFactor), ("avg_trade_pct", metrics.averageTrade),
    ("total_pnl_dollars", metrics.dollars), ("total_points", metrics.points)]

/-- The names of the metrics. -/
def names : List String :=
  ["total_return_pct", "annualized_return_pct", "max_drawdown_pct", "sharpe_ratio", "win_rate",
    "total_trades", "profit_factor", "avg_trade_pct", "total_pnl_dollars", "total_points"]

/-- The metric of a name. -/
def get? (metrics : Metrics α) (name : String) : Option α :=
  (metrics.entries.find? fun entry => entry.1 == name).map (·.2)

end Metrics

namespace Summary

variable {α : Type} [Arith α]

/-- The highest equity so far, at each bar. -/
def peaks : Series α → Series α
  | [] => []
  | first :: rest =>
      first :: Series.scan (fun peak x => (maximum peak x, maximum peak x)) first rest

/-- The largest of some numbers; undefined if one of them is. -/
def largest : List α → α
  | [] => nan
  | first :: rest => rest.foldl maximum first

/-- The largest decline from a running peak, in percent of the peak. -/
def maxDrawdown (equity : Series α) : α :=
  if equity.isEmpty then zero
  else largest (List.zipWith (fun peak x => (peak - x) / peak * ofNat 100) (peaks equity) equity)

/-- The relative change from each bar to the next one. -/
def returns : Series α → Series α
  | earlier :: later :: rest => (later - earlier) / earlier :: returns (later :: rest)
  | _ => []

def tradingDays : Nat := 252

/-- The mean of the returns in units of their deviation, scaled to a year of trading days. -/
def sharpe (equity : Series α) : α :=
  if equity.length < 2 then zero
  else
    let changes := returns equity
    let deviation := standardDeviation changes
    if same deviation zero || !isFinite deviation then zero
    else mean changes / deviation * sqrt (ofNat tradingDays)

def millisPerDay : Nat := 86400000

/-- The span of a run in years, at least a hundredth of one. -/
def years (first last : Int) : Outcome α := do
  let days : α ← match quotient? (last - first) millisPerDay with
    | some days => pure days
    | none => throw .quotientTooLarge
  let span := days / ofNat 365
  let least : α := ofDecimal false 1 (-2)
  pure (if less span least then least else span)

/-- The yearly return, in percent, that gives the last equity over a span of years. -/
def annualized (last span : α) : α :=
  if less zero last then (power (last / ofNat 100) (one / span) - one) * ofNat 100
  else -(ofNat 100)

/-- The gains in units of the losses; the cap stands for gains without losses. -/
def profitFactor (gains losses : α) : α :=
  if same losses zero then (if less zero gains then ofNat 999 else zero) else gains / losses

/-- The summary of a run.  Only the first and the last timestamp matter. -/
def metrics (trades : List (Trade α)) (equity : Series α) (timestamps : List Int) :
    Outcome (Metrics α) := do
  if trades.isEmpty then return .none
  let last ← Simulation.entryAt equity (-1)
  let final ← Simulation.entryAt timestamps (-1)
  let initial ← Simulation.entryAt timestamps 0
  let span : α ← years initial final
  let profits := trades.map (·.percent)
  let wins := profits.filter fun profit => less zero profit
  let losses := profits.filter fun profit => !less zero profit
  let gains := pairwiseSum wins
  let lost := pairwiseSum (losses.map Arith.abs)
  pure {
    totalReturn := roundTo 2 (last - ofNat 100)
    annualizedReturn := roundTo 2 (annualized last span)
    maxDrawdown := roundTo 2 (maxDrawdown equity)
    sharpe := roundTo 3 (sharpe equity)
    winRate := roundTo 2 (ofNat wins.length / ofNat trades.length * ofNat 100)
    trades := trades.length
    profitFactor := roundTo 3 (profitFactor gains lost)
    averageTrade := roundTo 3 (mean profits)
    dollars := roundTo 2 (leftSum (trades.map (·.dollars)))
    points := roundTo 2 (leftSum (trades.map (·.points))) }

end Summary

end Backtest
