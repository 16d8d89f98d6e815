import Backtest.Proofs.Exact
import Backtest.Proofs.Outcome
import Backtest.Report

/-!
# What a report shows

A report holds what its signals trade and the sums of it (`ofSignals_eq_ok`), and it shows the
parameters that its run used, whatever the run was.  Runs over a few bars of
exact numbers are computed where a statement needs a concrete report.
-/

namespace Backtest

namespace Report

variable {α : Type} [Arith α]

/-- A report holds what its signals trade, the sums of these trades, and the parameters. -/
theorem ofSignals_eq_ok {prices : Prices α} {signals : List (SignalKind × Flags)} {fromFlat : Bool}
    {params : Params α} {asset : Option (Asset α)} {report : Report α} :
    ofSignals prices signals fromFlat params asset = .ok report ↔
      Simulation.simulate prices signals asset fromFlat = .ok (report.trades, report.equity) ∧
        Summary.metrics report.trades report.equity prices.timestamp = .ok report.metrics ∧
        Summary.monthly report.trades = .ok report.monthly ∧ report.params = params := by
  constructor
  · intro hreport
    obtain ⟨⟨trades, equity⟩, hsimulated, hreport⟩ := Outcome.bind_eq_ok.1 hreport
    obtain ⟨metrics, hmetrics, hreport⟩ := Outcome.bind_eq_ok.1 hreport
    obtain ⟨monthly, hmonthly, hreport⟩ := Outcome.bind_eq_ok.1 hreport
    injection hreport with hreport
    rw [← hreport]
    exact ⟨hsimulated, hmetrics, hmonthly, rfl⟩
  · rintro ⟨hsimulated, hmetrics, hmonthly, rfl⟩
    exact Outcome.bind_eq_ok.2 ⟨_, hsimulated, Outcome.bind_eq_ok.2 ⟨_, hmetrics,
      Outcome.bind_eq_ok.2 ⟨_, hmonthly, rfl⟩⟩⟩

theorem params_of_ofSignals {prices : Prices α} {signals : List (SignalKind × Flags)}
    {fromFlat : Bool} {params : Params α} {asset : Option (Asset α)} {report : Report α}
    (hreport : ofSignals prices signals fromFlat params asset = .ok report) :
    report.params = params :=
  (ofSignals_eq_ok.1 hreport).2.2.2

theorem params_of_ofPreset {prices : Prices α} {kind : StrategyKind} {params : Params α}
    {asset : Option (Asset α)} {report : Report α}
    (hreport : ofPreset prices kind params asset = .ok report) :
    report.params = Preset.resolve kind params := by
  obtain ⟨rules, _, hreport⟩ := Outcome.bind_eq_ok.1 hreport
  exact params_of_ofSignals hreport

theorem params_of_ofStatements {prices : Prices α} {statements : List Script.Statement}
    {params : Params α} {asset : Option (Asset α)} {report : Report α}
    (hreport : ofStatements prices statements params asset = .ok report) :
    report.params = params := by
  obtain ⟨run, _, hreport⟩ := Outcome.bind_eq_ok.1 hreport
  exact params_of_ofSignals hreport

end Report

/-- Three bars with rising prices. -/
def threeBars : List (Bar Exact) :=
  [⟨0, .finite 1, .finite 1, .finite 1, .finite 1, .finite 0⟩,
    ⟨60000, .finite 2, .finite 2, .finite 2, .finite 2, .finite 0⟩,
    ⟨120000, .finite 3, .finite 3, .finite 3, .finite 3, .finite 0⟩]

end Backtest
