import Backtest.Proofs.Report
import Backtest.Proofs.Script.Lookup

/-!
# What a backtest looks up

A backtest reads its parameters by name.  Parameters with the same values by name give a preset the
same rules (`build_congr`) and a script the same signals, so the reports tell the same trades, and
show parameters that are the same by name (`ofPreset_alike`, `ofStatements_alike`).
-/

namespace Backtest

variable {α : Type} [Arith α] {params others : Params α}

/-- What a report tells, with its parameters as a map. -/
structure Content (α : Type) where
  params : String → Option (Scalar α)
  metrics : Metrics α
  trades : List (Trade α)
  equity : Series α
  monthly : List (MonthlyRow α)

def Report.content (report : Report α) : Content α :=
  ⟨report.params.get?, report.metrics, report.trades, report.equity, report.monthly⟩

/-- Two reports tell the same. -/
def Report.SameContent (report other : Report α) : Prop := report.content = other.content

theorem Preset.build_congr (kind : StrategyKind) (prices : Prices α)
    (hsame : Record.Same params others) : build kind prices params = build kind prices others := by
  have hparam (name : String) : param params name = param others name := by
    rw [param, param, hsame name]
  have hperiod (name : String) (default : Nat) :
      periodOf params name default = periodOf others name default := by
    rw [periodOf, periodOf, hparam]
  have haverage (name : String) :
      closeAverage prices params name = closeAverage prices others name := by
    rw [closeAverage, closeAverage, averageKind, averageKind, hparam, hperiod]
  cases kind with
  | dualAverage => simp only [build, dualAverage, haverage]
  | tripleAverage => simp only [build, tripleAverage, haverage]
  | strength => simp only [build, strength, hperiod, hparam]
  | convergence => simp only [build, convergence, hperiod]
  | bands => simp only [build, bands, hperiod, hparam]

namespace Report

theorem ofSignals_alike (prices : Prices α) (signals : List (SignalKind × Flags)) (fromFlat : Bool)
    (asset : Option (Asset α)) (hsame : Record.Same params others) :
    Outcome.Alike SameContent (ofSignals prices signals fromFlat params asset)
      (ofSignals prices signals fromFlat others asset) := by
  refine Outcome.alike_bind_eq rfl fun simulated => ?_
  refine Outcome.alike_bind_eq rfl fun metrics => ?_
  refine Outcome.alike_bind_eq rfl fun monthly => .ok ?_
  rw [SameContent, content, content, funext hsame]

theorem ofPreset_alike (prices : Prices α) (kind : StrategyKind) (asset : Option (Asset α))
    (hsame : Record.Same (Preset.resolve kind params) (Preset.resolve kind others)) :
    Outcome.Alike SameContent (ofPreset prices kind params asset)
      (ofPreset prices kind others asset) :=
  Outcome.alike_bind_eq (Preset.build_congr kind prices hsame) fun rules =>
    ofSignals_alike prices rules.signals rules.fromFlat asset hsame

theorem ofStatements_alike (prices : Prices α) (statements : List Script.Statement)
    (asset : Option (Asset α)) (hparams : Record.Distinct params) (hothers : Record.Distinct others)
    (hsame : Record.Same params others) :
    Outcome.Alike SameContent (ofStatements prices statements params asset)
      (ofStatements prices statements others asset) := by
  refine Outcome.alike_bind (Script.execute_alike statements prices hparams hothers hsame) ?_
  rintro run other ⟨env, _, rfl⟩
  exact ofSignals_alike prices _ false asset hsame

end Report

end Backtest
