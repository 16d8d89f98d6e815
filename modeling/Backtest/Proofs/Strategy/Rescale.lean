import Backtest.Proofs.Ideal
import Backtest.Proofs.Series.Window
import Backtest.Proofs.Simulation.Rescale
import Backtest.Proofs.Simulation.Truncation
import Backtest.Proofs.Strategy.Mask

/-!
# Presets in another unit

The rules of a preset do not depend on the unit of prices: they compare prices with averages, the
convergence with its own average, prices with bands, or the relative strength, which has no unit,
with fixed levels.  So a preset makes the same trades in every unit.
-/

namespace Backtest

open Arith Series

/-- What a run over prices in another unit reports: the same trades with their prices and profits in
that unit, the same percentages and equity, and other totals at most. -/
structure Report.Rescaled {α : Type} (change : α → α) (report other : Report α) : Prop where
  params : other.params = report.params
  trades : other.trades = report.trades.map (Trade.rescale change)
  equity : other.equity = report.equity
  metrics : report.metrics.SameRatios other.metrics
  monthly : other.monthly = report.monthly.map (MonthlyRow.rescale change)

section Rescale

variable {α : Type} [Arith α] {change : α → α}

namespace Preset

omit [Arith α] in
theorem readyWhere_rescale (test : α → α → Bool)
    (htest : ∀ x y, test (change x) (change y) = test x y) (ok : Flags) (xs ys : Series α) :
    readyWhere ok test (xs.map change) (ys.map change) = readyWhere ok test xs ys := by
  rw [readyWhere, List.zipWith_map]
  simp only [htest, readyWhere]

variable (hchange : Rescales change)
include hchange

theorem allDefined_rescale (series : List (Series α)) :
    allDefined (series.map (List.map change)) = allDefined series := by
  induction series with
  | nil => rfl
  | cons xs rest ih =>
      cases rest with
      | nil =>
          change (xs.map change).map _ = xs.map _
          rw [List.map_map]
          simp only [Function.comp_def, hchange.isNaN_eq]
      | cons ys others =>
          change List.zipWith _ (xs.map change) (allDefined ((ys :: others).map _)) =
            List.zipWith _ xs (allDefined (ys :: others))
          rw [ih, List.zipWith_map_left]
          simp only [hchange.isNaN_eq]

theorem ready_rescale (series : List (Series α)) :
    ready (series.map (List.map change)) = ready series := by
  rw [ready, allDefined_rescale hchange, ready]

theorem above_rescale (x y : α) : above (change x) (change y) = above x y := hchange.less_eq y x

theorem sides_rescale (xs ys : Series α) :
    sides (xs.map change) (ys.map change) = sides xs ys := by
  have hready : ready [xs.map change, ys.map change] = _ := ready_rescale hchange [xs, ys]
  simp only [sides, hready, readyWhere_rescale above (above_rescale hchange),
    readyWhere_rescale less hchange.less_eq]

theorem order_rescale (xs ys zs : Series α) :
    order (xs.map change) (ys.map change) (zs.map change) = order xs ys zs := by
  have hready : ready [xs.map change, ys.map change, zs.map change] = _ :=
    ready_rescale hchange [xs, ys, zs]
  simp only [order, hready, readyWhere_rescale above (above_rescale hchange),
    readyWhere_rescale less hchange.less_eq]

variable (prices : Prices α) (params : Params α)

theorem closeAverage_rescale (name : String) :
    closeAverage (prices.rescale change) params name =
      (closeAverage prices params name).map (List.map change) := by
  rw [closeAverage, closeAverage]
  cases periodOf params name 14 with
  | error fault => rfl
  | ok period => exact average_rescale hchange ..

theorem dualAverage_rescale :
    dualAverage (prices.rescale change) params = dualAverage prices params := by
  rw [dualAverage, closeAverage_rescale hchange, closeAverage_rescale hchange]
  refine Outcome.map_bind_congr fun fast => Outcome.map_bind_congr fun slow => ?_
  exact congrArg Except.ok (sides_rescale hchange fast slow)

theorem tripleAverage_rescale :
    tripleAverage (prices.rescale change) params = tripleAverage prices params := by
  rw [tripleAverage, closeAverage_rescale hchange, closeAverage_rescale hchange,
    closeAverage_rescale hchange]
  refine Outcome.map_bind_congr fun fast => Outcome.map_bind_congr fun mid =>
    Outcome.map_bind_congr fun slow => ?_
  exact congrArg Except.ok (order_rescale hchange fast mid slow)

theorem strength_rescale : strength (prices.rescale change) params = strength prices params := by
  have hline (period : Nat) : relativeStrength period (prices.rescale change).close = _ :=
    relativeStrength_rescale hchange period prices.close
  simp only [strength, hline]

theorem convergence_rescale :
    convergence (prices.rescale change) params = convergence prices params := by
  have hlines (fast slow signal : Nat) :
      Series.convergence fast slow signal (prices.rescale change).close = _ :=
    Series.convergence_rescale hchange fast slow signal prices.close
  simp only [convergence, hlines, sides_rescale hchange]

theorem bands_rescale : bands (prices.rescale change) params = bands prices params := by
  have hclose : (prices.rescale change).close = prices.close.map change := rfl
  have hready (xs ys zs : Series α) :
      ready [xs.map change, ys.map change, zs.map change] = ready [xs, ys, zs] :=
    ready_rescale hchange [xs, ys, zs]
  have hreached (x y : α) : atMost (change y) (change x) = atMost y x := hchange.atMost_eq y x
  simp only [bands, hclose, Series.bands_rescale hchange, hready,
    readyWhere_rescale above (above_rescale hchange), readyWhere_rescale less hchange.less_eq,
    readyWhere_rescale atMost hchange.atMost_eq,
    readyWhere_rescale (fun x y => atMost y x) hreached]

/-- The rules of a preset are the same in every unit. -/
theorem build_rescale (kind : StrategyKind) :
    build kind (prices.rescale change) params = build kind prices params := by
  cases kind with
  | dualAverage => exact dualAverage_rescale hchange ..
  | tripleAverage => exact tripleAverage_rescale hchange ..
  | strength => exact strength_rescale hchange ..
  | convergence => exact convergence_rescale hchange ..
  | bands => exact bands_rescale hchange ..

end Preset

variable (hchange : Rescales change)
include hchange

theorem Report.ofSignals_rescale (prices : Prices α) (signals : List (SignalKind × Flags))
    (fromFlat : Bool) (params : Params α) (asset : Option (Asset α)) :
    Outcome.Alike (Report.Rescaled change) (ofSignals prices signals fromFlat params asset)
      (ofSignals (prices.rescale change) signals fromFlat params asset) := by
  rw [ofSignals, ofSignals, Simulation.simulate_rescale hchange]
  refine Outcome.alike_bind (Outcome.alike_map ..) ?_
  rintro ⟨trades, equity⟩ _ rfl
  refine Outcome.alike_bind (Summary.metrics_rescale trades equity prices.timestamp)
    fun metrics other hmetrics => ?_
  rw [Summary.monthly_rescale hchange]
  refine Outcome.alike_bind (Outcome.alike_map ..) ?_
  rintro monthly _ rfl
  exact .ok ⟨rfl, rfl, rfl, hmetrics, rfl⟩

/-- A change of unit keeps the report of a preset, up to the unit. -/
theorem backtestPreset_rescale (bars : List (Bar α)) (strategy : String) (params : Params α)
    (asset : Option (Asset α)) :
    Outcome.Alike (Report.Rescaled change) (backtestPreset bars strategy params asset)
      (backtestPreset (bars.map (Bar.rescale change)) strategy params asset) := by
  refine Outcome.alike_bind_eq rfl fun kind => ?_
  rw [Prices.ofValidBars_rescale hchange]
  refine Outcome.alike_bind (Outcome.alike_map ..) ?_
  rintro prices _ rfl
  refine Outcome.alike_bind_eq (Preset.build_rescale hchange ..).symm fun rules => ?_
  exact Report.ofSignals_rescale hchange ..

end Rescale

/-! ## Ideal numbers -/

section Doubling

/-- A market that doubles from bar to bar. -/
noncomputable def doublingBars : List (Bar Ideal) :=
  [⟨0, one, one, one, one, zero⟩,
    ⟨60000, ofNat 2, ofNat 2, ofNat 2, ofNat 2, zero⟩,
    ⟨120000, ofNat 4, ofNat 4, ofNat 4, ofNat 4, zero⟩]

noncomputable def doublingPrices : Prices Ideal :=
  let column : Series Ideal := [one, ofNat 2, ofNat 4]
  ⟨[0, 60000, 120000], column, column, column, column, [zero, zero, zero]⟩

def doublingParams : Params Ideal := [("fastLength", .int 1), ("slowLength", .int 3)]

/-- The fast average stays above the slow one from the second bar on. -/
theorem build_doubling :
    Preset.build .dualAverage doublingPrices (Preset.resolve .dualAverage doublingParams) =
      .ok ⟨[(.openLong, [false, true, true]), (.openShort, [false, false, false])], false⟩ := by
  have haverage {name : String} {n : Int}
      (hparam : Preset.param (Preset.resolve .dualAverage doublingParams) name = .int n) :
      Preset.closeAverage doublingPrices (Preset.resolve .dualAverage doublingParams) name =
        .ok (exponential (max 1 n).toNat doublingPrices.close) := by
    have hkind : Preset.averageKind (Preset.resolve .dualAverage doublingParams) =
        .exponential := by decide +kernel
    have hperiod : Preset.periodOf (Preset.resolve .dualAverage doublingParams) name 14 =
        .ok (max 1 n).toNat := by
      rw [Preset.periodOf, hparam, Scalar.period_eq rfl, Ideal.windowLength_finite]
      rfl
    rw [Preset.closeAverage, hkind, hperiod]
    rfl
  have hfast : exponential 1 doublingPrices.close = [.finite 1, .finite 2, .finite 4] := by
    norm_num [exponential, smooth, smoothStep, scan, doublingPrices, one]
  have hslow : exponential 3 doublingPrices.close =
      [.finite 1, .finite (3 / 2), .finite (11 / 4)] := by
    norm_num [exponential, smooth, smoothStep, scan, doublingPrices, one]
  rw [Preset.build, Preset.dualAverage, haverage (n := 1) rfl, haverage (n := 3) rfl]
  change Except.ok (Preset.sides (exponential 1 _) (exponential 3 _)) = _
  rw [hfast, hslow]
  refine congrArg Except.ok ?_
  norm_num [Preset.sides, Preset.ready, Preset.allDefined, Preset.readyWhere, Preset.above,
    stepwise, scan]

/-- The run of this market holds one trade. -/
theorem backtestPreset_doubling :
    ∃ report, backtestPreset doublingBars "dual_ma" doublingParams none = .ok report ∧
      report.trades.map Simulation.tradeOutline = [(1, 2, .long)] := by
  have hlegs : Simulation.legs doublingPrices.length
      [(.openLong, [false, true, true]), (.openShort, [false, false, false])] false =
        [⟨1, 2, .long⟩] := rfl
  have htrade : Simulation.tradeOf doublingPrices none ⟨1, 2, .long⟩ =
      .ok ⟨1, 2, 60000, 120000, ofNat 2, ofNat 4, .long,
        (ofNat 4 - ofNat 2) / ofNat 2 * ofNat 100, ofNat 4 - ofNat 2, zero⟩ := by
    have hsame : same (ofNat 2 : Ideal) zero = false := decide_eq_false (by norm_num)
    change (if same (ofNat 2 : Ideal) zero = true then _ else _) = _
    rw [hsame]
    rfl
  have htrades : Simulation.tradesOf doublingPrices none [⟨1, 2, .long⟩] = .ok [_] :=
    Simulation.tradesOf_cons_eq_ok.2 ⟨_, [], htrade, rfl, rfl⟩
  change ∃ report, Report.ofPreset doublingPrices .dualAverage doublingParams none = .ok report ∧ _
  rw [Report.ofPreset, build_doubling]
  change ∃ report, Report.ofSignals doublingPrices _ false _ none = .ok report ∧ _
  rw [Report.ofSignals, Simulation.simulate, hlegs, htrades]
  exact ⟨_, rfl, rfl⟩

end Doubling

/-- A preset over prices in another unit makes the same trades: at the same bars, in the same
direction and with the same percentages, its points and its money in that unit. -/
theorem preset_trades_in_every_unit {factor : ℝ} (hfactor : 0 < factor) (bars : List (Bar Ideal))
    (strategy : String) (params : Params Ideal) (asset : Option (Asset Ideal)) :
    Outcome.Alike (Report.Rescaled (Ideal.scale factor))
      (backtestPreset bars strategy params asset)
      (backtestPreset (bars.map (Bar.rescale (Ideal.scale factor))) strategy params asset) :=
  backtestPreset_rescale (Ideal.rescales hfactor) bars strategy params asset

theorem preset_trades_in_every_unit_doubling : 0 < (2 : ℝ) ∧
    ∃ report other, backtestPreset doublingBars "dual_ma" doublingParams none = .ok report ∧
      backtestPreset (doublingBars.map (Bar.rescale (Ideal.scale 2))) "dual_ma" doublingParams
        none = .ok other ∧
      Report.Rescaled (Ideal.scale 2) report other ∧
      report.trades.map Simulation.tradeOutline = [(1, 2, .long)] := by
  obtain ⟨report, hreport, htrades⟩ := backtestPreset_doubling
  obtain ⟨other, hother, hrescaled⟩ :=
    (preset_trades_in_every_unit two_pos doublingBars "dual_ma" doublingParams none).exists_ok
      hreport
  exact ⟨two_pos, report, other, hreport, hother, hrescaled, htrades⟩

end Backtest
