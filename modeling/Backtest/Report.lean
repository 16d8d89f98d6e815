import Backtest.Input.Param
import Backtest.Preset
import Backtest.Script.Run
import Backtest.Summary.Metrics
import Backtest.Summary.Monthly

/-!
# Backtests

A backtest runs a preset or a script over a list of bars and reports what it traded.  The report
keeps the parameters that the run really used: those given, with the defaults of the preset or of
the script for all others.
-/

namespace Backtest

structure Report (α : Type) where
  metrics : Metrics α
  params : Params α
  trades : List (Trade α)
  equity : Series α
  monthly : List (MonthlyRow α)

namespace Report

variable {α : Type} [Arith α]

/-- The metric of a name. -/
def metric (report : Report α) (name : String) : Outcome α :=
  match report.metrics.get? name with
  | some value => .ok value
  | none => .error (.unknownAttribute name)

/-- The report of some signals over a price table. -/
def ofSignals (prices : Prices α) (signals : List (SignalKind × Flags)) (fromFlat : Bool)
    (params : Params α) (asset : Option (Asset α)) : Outcome (Report α) := do
  let (trades, equity) ← Simulation.simulate prices signals asset fromFlat
  let metrics ← Summary.metrics trades equity prices.timestamp
  let monthly ← Summary.monthly trades
  pure ⟨metrics, params, trades, equity, monthly⟩

/-- A preset over a checked price table. -/
def ofPreset (prices : Prices α) (kind : StrategyKind) (params : Params α)
    (asset : Option (Asset α)) : Outcome (Report α) := do
  let used := Preset.resolve kind params
  let rules ← Preset.build kind prices used
  ofSignals prices rules.signals rules.fromFlat used asset

/-- Statements over a checked price table, with all of their parameters given. -/
def ofStatements (prices : Prices α) (statements : List Script.Statement) (params : Params α)
    (asset : Option (Asset α)) : Outcome (Report α) := do
  let run ← Script.execute statements prices params
  ofSignals prices run.activations false params asset

end Report

variable {α : Type} [Arith α]

/-- Backtests the preset of a name over a list of bars. -/
def backtestPreset (bars : List (Bar α)) (strategy : String) (params : Params α)
    (asset : Option (Asset α)) : Outcome (Report α) := do
  let kind ← StrategyKind.ofName strategy
  let prices ← Prices.ofValidBars bars
  Report.ofPreset prices kind params asset

/-- Backtests a script over a list of bars. -/
def backtestScript (bars : List (Bar α)) (code : String) (params : Params α)
    (asset : Option (Asset α)) : Outcome (Report α) := do
  let prices ← Prices.ofValidBars bars
  let used := Record.overlay (Input.scriptDefaults code.toList) params
  Report.ofStatements prices (Script.parse code.toList) used asset

end Backtest
