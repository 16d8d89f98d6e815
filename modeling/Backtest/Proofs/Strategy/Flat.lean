import Backtest.Proofs.Prices
import Backtest.Proofs.Series.Rest
import Backtest.Proofs.Strategy.Lines
import Backtest.Report

/-!
# Flat markets

Where all closes are the same number, no preset ever opens a position: its lines rest, so no line is
above or below another one and no level is crossed.  Whatever the parameters are, the run has no
trades and its equity stays at one hundred (`flat_market_never_trades`).
-/

namespace Backtest

open Arith Series

variable {α : Type} [Arith α]

/-! ## Runs without an opening -/

/-- No signal that opens a position is ever active. -/
def NeverOpens (signals : List (SignalKind × Flags)) : Prop :=
  ∀ signal ∈ signals, signal.1.opens?.isSome = true → Never signal.2

theorem Simulation.legs_eq_nil {signals : List (SignalKind × Flags)} (hnever : NeverOpens signals)
    (bars : Nat) (fromFlat : Bool) : legs bars signals fromFlat = [] := by
  refine List.eq_nil_iff_forall_not_mem.2 fun leg hleg => ?_
  obtain ⟨kind, hkind, hopens⟩ := (legs_justified bars signals fromFlat leg hleg).opened
  obtain ⟨signal, hsignal, hactive⟩ := List.mem_filterMap.1 hkind
  obtain ⟨hflag, ⟨⟩⟩ := Option.ite_none_right_eq_some.1 hactive
  have hmasked := hnever signal hsignal (by rw [hopens]; rfl)
  cases hmask : signal.2[leg.entry]? with
  | none =>
      rw [hmask] at hflag
      exact nomatch hflag
  | some flag =>
      rw [hmask, Option.getD_some, hmasked flag (List.mem_of_getElem? hmask)] at hflag
      exact nomatch hflag

theorem Simulation.equityCurve_nil (hone : (one * one : α) = one)
    (hhundred : (ofNat 100 * one : α) = ofNat 100) (bars : Nat) :
    equityCurve bars ([] : List (Trade α)) = List.replicate bars (ofNat 100) := by
  have hfactors : (List.range bars).map (factorAt ([] : List (Trade α))) =
      List.replicate bars one := by
    have hone : ∀ bar ∈ List.range bars, factorAt ([] : List (Trade α)) bar = one := fun _ _ => rfl
    rw [List.map_eq_replicate_iff.2 hone, List.length_range]
  have hproducts (count : Nat) :
      scan (fun total factor : α => (total * factor, total * factor)) one
        (List.replicate count one) = List.replicate count one := by
    induction count with
    | zero => rfl
    | succ count ih =>
        rw [List.replicate_succ, scan_cons]
        dsimp only
        rw [hone, ih]
  rw [equityCurve, hfactors, hproducts, List.map_replicate, hhundred]

/-! ## Presets over a flat series -/

namespace Preset

variable {xs ys zs : Series α} {ok holds : Flags} {c : α}

omit [Arith α] in
theorem never_masked (hholds : Never holds) : Never (List.zipWith (· && ·) ok holds) :=
  forall_mem_zipWith fun ready _ flag hflag => by rw [hholds flag hflag, Bool.and_false]

omit [Arith α] in
theorem never_readyWhere {test : α → α → Bool} (htest : ∀ x ∈ xs, ∀ y ∈ ys, test x y = false) :
    Never (readyWhere ok test xs ys) :=
  never_masked (forall_mem_zipWith htest)

variable (hsteady : Steady α)
include hsteady

theorem never_below (hxs : Rests c xs) (hys : Rests c ys) : Never (readyWhere ok less xs ys) :=
  never_readyWhere fun x hx y hy => hsteady.not_less (hxs x hx) (hys y hy)

theorem never_above (hxs : Rests c xs) (hys : Rests c ys) : Never (readyWhere ok above xs ys) :=
  never_readyWhere fun x hx y hy => hsteady.not_less (hys y hy) (hxs x hx)

theorem neverOpens_sides (hxs : Rests c xs) (hys : Rests c ys) :
    NeverOpens (sides xs ys).signals := by
  refine List.forall_mem_cons.2 ⟨fun _ => never_above hsteady hxs hys, ?_⟩
  exact List.forall_mem_singleton.2 fun _ => never_below hsteady hxs hys

theorem neverOpens_order (hys : Rests c ys) (hzs : Rests c zs) :
    NeverOpens (order xs ys zs).signals := by
  refine List.forall_mem_cons.2 ⟨fun _ => never_above hsteady hys hzs, ?_⟩
  refine List.forall_mem_cons.2 ⟨fun _ => never_below hsteady hys hzs, ?_⟩
  exact List.forall_mem_singleton.2 nofun

/-- Over closes that rest at a finite number no preset opens a position. -/
theorem neverOpens_build (hc : isFinite c = true) {prices : Prices α}
    (hflat : Rests c prices.close) {kind : StrategyKind} {params : Params α} {rules : Rules}
    (hrules : build kind prices params = .ok rules) : NeverOpens rules.signals := by
  have haverage {name : String} {xs : Series α}
      (hxs : closeAverage prices params name = .ok xs) : Rests c xs := by
    obtain ⟨period, _, hxs⟩ := Outcome.bind_eq_ok.1 hxs
    exact rests_average hsteady hc hflat hxs
  cases kind with
  | dualAverage =>
      obtain ⟨fast, slow, hfast, hslow, rfl⟩ := dualAverage_eq_ok hrules
      exact neverOpens_sides hsteady (haverage hfast) (haverage hslow)
  | tripleAverage =>
      obtain ⟨fast, mid, slow, _, hmid, hslow, rfl⟩ := tripleAverage_eq_ok hrules
      exact neverOpens_order hsteady (haverage hmid) (haverage hslow)
  | convergence =>
      obtain ⟨fast, slow, signal, _, _, _, rfl⟩ := convergence_eq_ok hrules
      obtain ⟨hline, hsignal⟩ := rests_convergence hsteady hc fast slow signal hflat
      exact neverOpens_sides hsteady hline hsignal
  | strength =>
      obtain ⟨period, oversold, overbought, _, _, _, rfl⟩ := strength_eq_ok hrules
      have hline := rests_relativeStrength hsteady hc period hflat
      refine List.forall_mem_cons.2
        ⟨fun _ => never_masked (never_crossover hsteady oversold _ hline), ?_⟩
      exact List.forall_mem_singleton.2
        fun _ => never_masked (never_crossunder hsteady overbought _ hline)
  | bands =>
      obtain ⟨period, width, _, _, rfl⟩ := bands_eq_ok hrules
      obtain ⟨hupper, hlower⟩ := rests_bands hsteady hc period width hflat
      refine List.forall_mem_cons.2 ⟨fun _ => never_below hsteady hflat hlower, ?_⟩
      refine List.forall_mem_cons.2 ⟨fun _ => never_above hsteady hflat hupper, ?_⟩
      exact List.forall_mem_cons.2 ⟨nofun, List.forall_mem_singleton.2 nofun⟩

end Preset

/-- Over closes that all have the same value no preset trades, and the equity stays at one
hundred. -/
theorem flat_market_never_trades (hsteady : Steady α) {bars : List (Bar α)} {c : α}
    (hflat : ∀ bar ∈ bars, same bar.close c = true) {strategy : String} {params : Params α}
    {asset : Option (Asset α)} {report : Report α}
    (hrun : backtestPreset bars strategy params asset = .ok report) :
    report.trades = [] ∧ report.equity = List.replicate bars.length (ofNat 100) := by
  obtain ⟨kind, _, hrun⟩ := Outcome.bind_eq_ok.1 hrun
  obtain ⟨prices, hprices, hrun⟩ := Outcome.bind_eq_ok.1 hrun
  obtain ⟨rules, hrules, hrun⟩ := Outcome.bind_eq_ok.1 hrun
  obtain ⟨hclose, _⟩ := Prices.columns_of_ofValidBars hprices
  have haccepted := Prices.ofValidBars_accepted hprices
  have hrests : Rests c prices.close := by
    rw [hclose]
    exact List.forall_mem_map.2 fun bar hbar => .inr (hflat bar hbar)
  have hc : isFinite c = true := by
    obtain ⟨x, hx⟩ := List.exists_mem_of_length_pos haccepted.nonempty
    obtain ⟨bar, hbar, rfl⟩ := List.mem_map.1 (hclose ▸ hx)
    exact hsteady.finite_of_same _ _ (hflat bar hbar) (haccepted.finite _ hx)
  have hlegs := Simulation.legs_eq_nil (Preset.neverOpens_build hsteady hc hrests hrules)
    prices.length rules.fromFlat
  have hlength : prices.length = bars.length := by
    rw [Prices.length, hclose, List.length_map]
  obtain ⟨⟨trades, equity⟩, hsimulated, hrun⟩ := Outcome.bind_eq_ok.1 hrun
  obtain ⟨metrics, _, hrun⟩ := Outcome.bind_eq_ok.1 hrun
  obtain ⟨monthly, _, hrun⟩ := Outcome.bind_eq_ok.1 hrun
  injection hrun with hrun
  rw [Simulation.simulate, hlegs] at hsimulated
  injection hsimulated with hsimulated
  injection hsimulated with htrades hequity
  rw [← hrun, ← htrades, ← hequity, ← hlength]
  exact ⟨rfl, Simulation.equityCurve_nil hsteady.one_mul_one hsteady.hundred_mul_one _⟩

/-- Three bars at a price that doubles do not hold exactly. -/
def stillBars (α : Type) [Arith α] : List (Bar α) :=
  let price : α := ofNat 7 / ofNat 3
  [⟨0, price, price, price, price, one⟩, ⟨1, price, price, price, price, one⟩,
    ⟨2, price, price, price, price, one⟩]

/-- Bands that are turned upside down. -/
def turnedBands (α : Type) [Arith α] : Params α := [("bbLength", .int 2), ("bbMult", .int (-3))]

theorem flat_market_never_trades_still :
    Steady Float ∧ Steady Exact ∧
    (∀ bar ∈ stillBars Float, same bar.close (ofNat 7 / ofNat 3) = true) ∧
    (∀ bar ∈ stillBars Exact, same bar.close (ofNat 7 / ofNat 3) = true) ∧
    (∃ report, backtestPreset (stillBars Float) "bollinger" (turnedBands Float) none = .ok report ∧
      report.trades = [] ∧ report.equity = [ofNat 100, ofNat 100, ofNat 100]) ∧
    ∃ report, backtestPreset (stillBars Exact) "rsi" [("rsiPeriod", .int 1)] none = .ok report ∧
      report.trades = [] ∧ report.equity = [ofNat 100, ofNat 100, ofNat 100] := by
  have hfloat : ∀ bar ∈ stillBars Float, same bar.close (ofNat 7 / ofNat 3) = true := by
    decide +kernel
  have hexact : ∀ bar ∈ stillBars Exact, same bar.close (ofNat 7 / ofNat 3) = true := by
    decide +kernel
  refine ⟨Double.steady, Exact.steady, hfloat, hexact, ?_, ?_⟩
  · have hrun : Outcome.fault? (backtestPreset (stillBars Float) "bollinger" (turnedBands Float)
        none) = none := by
      decide +kernel
    obtain ⟨report, hreport⟩ := Outcome.fault?_eq_none.1 hrun
    exact ⟨report, hreport, flat_market_never_trades Double.steady hfloat hreport⟩
  · have hrun : Outcome.fault? (backtestPreset (stillBars Exact) "rsi" [("rsiPeriod", .int 1)]
        none) = none := by
      decide +kernel
    obtain ⟨report, hreport⟩ := Outcome.fault?_eq_none.1 hrun
    exact ⟨report, hreport, flat_market_never_trades Exact.steady hexact hreport⟩

end Backtest
