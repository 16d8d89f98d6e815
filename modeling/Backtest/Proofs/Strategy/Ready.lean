import Backtest.Preset
import Backtest.Proofs.Report
import Backtest.Proofs.Script.Interpretation
import Backtest.Proofs.Series.Course
import Backtest.Proofs.Series.Length
import Backtest.Proofs.Simulation.Arrangement
import Backtest.Report
import Mathlib.Data.List.Forall2

/-!
# What a simulation sees of signals

No signal acts at the first bar, so two lists of signals that agree from the second bar on are
traded alike (`Report.ofSignals_congr`).  The mask of the bars at which a preset is ready is open at
a bar if all of its series are defined there and at the bar before; over series that are defined
everywhere it is open from the second bar on.
-/

namespace Backtest

open Arith Script

variable {α : Type} [Arith α]

/-! ## Signals from the second bar on -/

/-- Two signals of the same kind that are active at the same bars, the first one left out. -/
def SameFromSecond (bars : Nat) (signal other : SignalKind × Flags) : Prop :=
  signal.1 = other.1 ∧
    ∀ bar, bar + 1 < bars → truthAt (bar + 1) signal.2 = truthAt (bar + 1) other.2

namespace Simulation

variable {bars : Nat} {signals others : List (SignalKind × Flags)}

theorem activeAt_congr (hsame : List.Forall₂ (SameFromSecond bars) signals others) {bar : Nat}
    (hbar : bar + 1 < bars) : activeAt signals (bar + 1) = activeAt others (bar + 1) := by
  induction hsame with
  | nil => rfl
  | cons hfirst _ ih =>
      obtain ⟨hkind, hmask⟩ := hfirst
      rw [activeAt_cons, activeAt_cons, hkind, hmask bar hbar, ih]

theorem legs_congr (hsame : List.Forall₂ (SameFromSecond bars) signals others) (fromFlat : Bool) :
    legs bars signals fromFlat = legs bars others fromFlat := by
  apply legs_eq_of_onBar
  intro bar hfirst hlast held
  obtain ⟨before, rfl⟩ := Nat.exists_eq_add_of_le' hfirst
  rw [activeAt_congr hsame hlast]

end Simulation

/-- Signals that agree from the second bar on have the same report. -/
theorem Report.ofSignals_congr {prices : Prices α} {signals others : List (SignalKind × Flags)}
    (hsame : List.Forall₂ (SameFromSecond prices.length) signals others) (fromFlat : Bool)
    (params : Params α) (asset : Option (Asset α)) :
    ofSignals prices signals fromFlat params asset =
      ofSignals prices others fromFlat params asset := by
  have hlegs := Simulation.legs_congr hsame fromFlat
  rw [ofSignals, ofSignals, Simulation.simulate, Simulation.simulate, hlegs]

/-- The trades of a report are those of the legs of its signals. -/
theorem Report.trades_of_ofSignals {prices : Prices α} {signals : List (SignalKind × Flags)}
    {fromFlat : Bool} {params : Params α} {asset : Option (Asset α)} {report : Report α}
    (hreport : ofSignals prices signals fromFlat params asset = .ok report) :
    Simulation.tradesOf prices asset (Simulation.legs prices.length signals fromFlat) =
        .ok report.trades ∧
      report.equity = Simulation.equityCurve prices.length report.trades := by
  obtain ⟨hsimulated, _⟩ := ofSignals_eq_ok.1 hreport
  exact Simulation.simulate_eq_ok.1 hsimulated

/-- The trades of a report are those of the legs that the rules of its preset leave. -/
theorem trades_of_backtestPreset {bars : List (Bar α)} {strategy : String} {params : Params α}
    {asset : Option (Asset α)} {report : Report α}
    (hrun : backtestPreset bars strategy params asset = .ok report) :
    ∃ kind prices rules, StrategyKind.ofName strategy = .ok kind ∧
      Prices.ofValidBars bars = .ok prices ∧
      Preset.build kind prices (Preset.resolve kind params) = .ok rules ∧
      Simulation.tradesOf prices asset
        (Simulation.legs prices.length rules.signals rules.fromFlat) = .ok report.trades ∧
      report.equity = Simulation.equityCurve prices.length report.trades := by
  obtain ⟨kind, hkind, hrun⟩ := Outcome.bind_eq_ok.1 hrun
  obtain ⟨prices, hprices, hrun⟩ := Outcome.bind_eq_ok.1 hrun
  obtain ⟨rules, hrules, hrun⟩ := Outcome.bind_eq_ok.1 hrun
  exact ⟨kind, prices, rules, hkind, hprices, hrules, Report.trades_of_ofSignals hrun⟩

/-! ## Defined series -/

namespace Series

/-- A series is defined at a bar. -/
def definedAt (bar : Nat) (xs : Series α) : Bool := xs[bar]?.any fun x => !isNaN x

/-- No value of a series is undefined after its first defined one. -/
def StaysDefined (xs : Series α) : Prop :=
  ∀ first later, first ≤ later → later < xs.length →
    definedAt first xs = true → definedAt later xs = true

/-- A series is defined at every bar. -/
def Defined (xs : Series α) : Prop := ∀ bar < xs.length, definedAt bar xs = true

theorem StaysDefined.defined {xs : Series α} (hstays : StaysDefined xs)
    (hfirst : 0 < xs.length → definedAt 0 xs = true) : Defined xs :=
  fun bar hbar => hstays 0 bar (Nat.zero_le bar) hbar (hfirst (Nat.zero_lt_of_lt hbar))

/-- An average that starts at the first defined value starts at the first bar if it can. -/
theorem getElem?_zero_smooth (factor : α) {xs : Series α} (hfirst : definedAt 0 xs = true) :
    (smooth factor xs)[0]? = xs[0]? := by
  cases xs with
  | nil => rfl
  | cons x rest =>
      have hdefined : isNaN x = false := by simpa [definedAt] using hfirst
      rw [smooth, scan_cons, smoothStep, hdefined]
      rfl

theorem definedAt_zero_smooth (factor : α) {xs : Series α} (hfirst : definedAt 0 xs = true) :
    definedAt 0 (smooth factor xs) = true := by
  rw [definedAt, getElem?_zero_smooth factor hfirst]
  exact hfirst

end Series

/-! ## Ready bars -/

namespace Preset

open Series

variable {bars : Nat}

theorem length_ready {series : List (Series α)} (hseries : series ≠ [])
    (hlength : ∀ xs ∈ series, xs.length = bars) : (ready series).length = bars := by
  rw [ready, length_stepwise]
  induction series with
  | nil => exact absurd rfl hseries
  | cons xs rest ih =>
      have hxs := hlength xs List.mem_cons_self
      cases rest with
      | nil => exact (List.length_map _).trans hxs
      | cons ys others =>
          have hrest := ih (List.cons_ne_nil ys others) fun zs hzs =>
            hlength zs (List.mem_cons_of_mem _ hzs)
          exact length_zipWith_of hxs hrest

theorem truthAt_allDefined {series : List (Series α)} (hseries : series ≠ [])
    (hlength : ∀ xs ∈ series, xs.length = bars) {bar : Nat} (hbar : bar < bars) :
    truthAt bar (allDefined series) = series.all (definedAt bar) := by
  induction series with
  | nil => exact absurd rfl hseries
  | cons xs rest ih =>
      have hxs : bar < xs.length := hlength xs List.mem_cons_self ▸ hbar
      cases rest with
      | nil => simp [allDefined, truthAt, definedAt, hxs]
      | cons ys others =>
          have hrest := ih (List.cons_ne_nil ys others) fun zs hzs =>
            hlength zs (List.mem_cons_of_mem _ hzs)
          change truthAt bar (List.zipWith _ xs (allDefined (ys :: others))) = _
          rw [List.all_cons, ← hrest, truthAt, truthAt, List.getElem?_zipWith, definedAt,
            List.getElem?_eq_getElem hxs]
          cases (allDefined (ys :: others))[bar]? with
          | none => exact (Bool.and_false _).symm
          | some flag => rfl

/-- No preset is ready at the first bar. -/
theorem truthAt_zero_ready (series : List (Series α)) : truthAt 0 (ready series) = false := by
  rw [ready]
  cases allDefined series <;> rfl

/-- A preset is ready where its series are defined and were so at the bar before. -/
theorem truthAt_ready {series : List (Series α)} (hseries : series ≠ [])
    (hlength : ∀ xs ∈ series, xs.length = bars) {bar : Nat} (hbar : bar + 1 < bars) :
    truthAt (bar + 1) (ready series) =
      (series.all (definedAt bar) && series.all (definedAt (bar + 1))) := by
  rw [← truthAt_allDefined hseries hlength (Nat.lt_of_succ_lt hbar),
    ← truthAt_allDefined hseries hlength hbar, ready, truthAt, getElem?_stepwise]
  cases hnow : (allDefined series)[bar + 1]? with
  | none =>
      rw [truthAt, truthAt, hnow]
      exact (Bool.and_false _).symm
  | some flag =>
      rw [truthAt, truthAt, hnow]
      rfl

/-- Over series that are defined everywhere a preset is ready from the second bar on. -/
theorem truthAt_ready_of_defined {series : List (Series α)} (hseries : series ≠ [])
    (hlength : ∀ xs ∈ series, xs.length = bars) (hdefined : ∀ xs ∈ series, Defined xs) {bar : Nat}
    (hbar : bar + 1 < bars) : truthAt (bar + 1) (ready series) = true := by
  have hall {place : Nat} (hplace : place < bars) : series.all (definedAt place) = true :=
    List.all_eq_true.2 fun xs hxs => hdefined xs hxs place (hlength xs hxs ▸ hplace)
  rw [truthAt_ready hseries hlength hbar, hall (Nat.lt_of_succ_lt hbar), hall hbar, Bool.and_true]

end Preset

end Backtest
