import Backtest.Proofs.Record
import Backtest.Proofs.Series.Window
import Backtest.Proofs.Summary.Fault

/-!
# What can stop the backtest of a preset

The check of the bars is not the only thing that can stop a backtest.  On accepted bars, and with
numbers for all numeric parameters, three faults are left, and each has its obstacle in the input: a
close of zero, a weighted average over a window whose weights overflow, and a moment outside the
calendar (`backtestPreset_returns_or`).  The first of them is no more than a valid price
(`zeroClose_stops`).
-/

namespace Backtest

open Outcome

variable {α : Type} [Arith α]

/-! ## Rules -/

namespace Preset

/-- The parameters of a preset that stand for numbers. -/
def numericNames : StrategyKind → List String
  | .dualAverage => ["fastLength", "slowLength"]
  | .tripleAverage => ["fastLength", "midLength", "slowLength"]
  | .strength => ["rsiPeriod", "oversold", "overbought"]
  | .convergence => ["fastLength", "slowLength", "signalLength"]
  | .bands => ["bbLength", "bbMult"]

/-- The lengths of averages whose kind is a parameter. -/
def averageNames : StrategyKind → List String
  | .dualAverage => ["fastLength", "slowLength"]
  | .tripleAverage => ["fastLength", "midLength", "slowLength"]
  | .strength | .convergence | .bands => []

/-- A preset has all of its numeric parameters. -/
theorem param_mem_resolve {kind : StrategyKind} (params : Params α) {name : String}
    (hname : name ∈ numericNames kind) :
    (name, param (resolve kind params) name) ∈ resolve kind params := by
  have hdefault : name ∈ (defaults kind : Params α).names := by
    revert name
    cases kind <;> simp [numericNames, defaults, Record.names]
  have hused : name ∈ (resolve kind params).names := Record.mem_names_overlay.2 (.inr hdefault)
  obtain ⟨value, hvalue⟩ := Record.exists_get? hused
  have hparam : param (resolve kind params) name = value := by
    rw [param, hvalue, Option.getD_some]
  rw [hparam]
  exact Record.mem_of_get? hvalue

/-- Each numeric parameter stands for a number. -/
def Numeric (kind : StrategyKind) (used : Params α) : Prop :=
  ∀ name ∈ numericNames kind, ∃ x, (param used name).toReal = .ok x

/-- The fault of a weighted average whose weights have no sum. -/
def HeavyWeights (kind : StrategyKind) (used : Params α) (fault : Fault) : Prop :=
  fault = .integerTooLarge ∧ averageKind used = .weighted ∧
    ∃ name ∈ averageNames kind, ∃ length,
      periodOf used name 14 = .ok length ∧ ¬ Series.Weighable α length

variable {kind : StrategyKind} {used : Params α} {name : String} {P : Fault → Prop}

theorem Numeric.periodOf (hnumeric : Numeric kind used) (hname : name ∈ numericNames kind)
    (default : Nat) : FailsBy P (periodOf used name default) := by
  obtain ⟨x, hx⟩ := hnumeric name hname
  exact failsBy_of_eq_ok (Scalar.period_eq hx default)

theorem Numeric.toReal (hnumeric : Numeric kind used)
    (hname : name ∈ numericNames kind) : FailsBy P (param used name).toReal := by
  obtain ⟨x, hx⟩ := hnumeric name hname
  exact failsBy_of_eq_ok hx

theorem closeAverage_failsBy (hnumeric : Numeric kind used) (hname : name ∈ averageNames kind)
    (hnumber : name ∈ numericNames kind) (prices : Prices α) :
    FailsBy (HeavyWeights kind used) (closeAverage prices used name) := by
  refine failsBy_bind (hnumeric.periodOf hnumber 14) fun length hlength => ?_
  refine (Series.average_failsBy _ length prices.close).mono ?_
  rintro fault ⟨hfault, hweighted, hheavy⟩
  exact ⟨hfault, hweighted, name, hname, length, hlength, hheavy⟩

/-- A preset has its rules unless the weights of an average have no sum. -/
theorem build_failsBy (hnumeric : Numeric kind used) (prices : Prices α) :
    FailsBy (HeavyWeights kind used) (build kind prices used) := by
  cases kind with
  | dualAverage =>
      refine failsBy_bind (closeAverage_failsBy hnumeric (by decide) (by decide) _) fun _ _ => ?_
      refine failsBy_bind (closeAverage_failsBy hnumeric (by decide) (by decide) _) fun _ _ => ?_
      exact failsBy_ok _ _
  | tripleAverage =>
      refine failsBy_bind (closeAverage_failsBy hnumeric (by decide) (by decide) _) fun _ _ => ?_
      refine failsBy_bind (closeAverage_failsBy hnumeric (by decide) (by decide) _) fun _ _ => ?_
      refine failsBy_bind (closeAverage_failsBy hnumeric (by decide) (by decide) _) fun _ _ => ?_
      exact failsBy_ok _ _
  | strength =>
      refine failsBy_bind (hnumeric.periodOf (by decide) 14) fun _ _ => ?_
      refine failsBy_bind (hnumeric.toReal (by decide)) fun _ _ => ?_
      refine failsBy_bind (hnumeric.toReal (by decide)) fun _ _ => ?_
      exact failsBy_ok _ _
  | convergence =>
      refine failsBy_bind (hnumeric.periodOf (by decide) 14) fun _ _ => ?_
      refine failsBy_bind (hnumeric.periodOf (by decide) 14) fun _ _ => ?_
      refine failsBy_bind (hnumeric.periodOf (by decide) 14) fun _ _ => ?_
      exact failsBy_ok _ _
  | bands =>
      refine failsBy_bind (hnumeric.periodOf (by decide) 20) fun _ _ => ?_
      refine failsBy_bind (hnumeric.toReal (by decide)) fun _ _ => ?_
      exact failsBy_ok _ _

end Preset

/-! ## Whole backtests -/

theorem StrategyKind.ofName_name (kind : StrategyKind) : ofName kind.name = .ok kind := by
  cases kind <;> rfl

/-- On an accepted table, what stops a preset is known. -/
theorem Report.ofPreset_failsBy (hspans : Summary.DividesSpans α) {prices : Prices α}
    (haccepted : prices.Accepted) {kind : StrategyKind} {params : Params α}
    (hnumeric : Preset.Numeric kind (Preset.resolve kind params)) (asset : Option (Asset α)) :
    FailsBy (fun fault => Preset.HeavyWeights kind (Preset.resolve kind params) fault ∨
        Simulation.ZeroClose prices fault ∨ Summary.Undated prices fault)
      (ofPreset prices kind params asset) := by
  refine failsBy_bind ((Preset.build_failsBy hnumeric prices).mono fun _ => .inl) fun rules _ => ?_
  exact (ofSignals_failsBy hspans haccepted _ _ _ asset).mono fun _ => .inr

/-! ## Doubles -/

/-- Parameters that give a number wherever a preset needs one. -/
def GivesNumbers (kind : StrategyKind) (params : Params Float) : Prop :=
  ∀ entry ∈ params, entry.1 ∈ Preset.numericNames kind → ∃ x, entry.2.toReal = .ok x

theorem givesNumbers_defaults (kind : StrategyKind) : GivesNumbers kind (Preset.defaults kind) := by
  intro entry hentry hname
  cases kind
  all_goals
    simp only [Preset.defaults, List.mem_cons, List.not_mem_nil, or_false] at hentry
    rcases hentry with rfl | rfl | rfl | rfl
  all_goals first
    | exact Double.exists_ofInt (by decide)
    | exact ⟨_, rfl⟩
    | exact absurd hname (by decide)

theorem GivesNumbers.numeric {kind : StrategyKind} {params : Params Float}
    (hnumbers : GivesNumbers kind params) : Preset.Numeric kind (Preset.resolve kind params) := by
  intro name hname
  rcases Record.mem_of_mem_overlay (Preset.param_mem_resolve params hname) with hmem | hmem
  · exact hnumbers _ hmem hname
  · exact givesNumbers_defaults kind _ hmem hname

/-- What can be in the way of the backtest of a preset on accepted bars, with the fault that it
leads to. -/
inductive Obstacle (prices : Prices Float) (kind : StrategyKind) (used : Params Float) :
    Fault → Prop
  | zeroClose (x : Float) (hmem : x ∈ prices.close) (hzero : Arith.same x Arith.zero = true) :
      Obstacle prices kind used .divisionByZero
  | longWindow (name : String) (length : Nat) (hname : name ∈ Preset.averageNames kind)
      (hweighted : Preset.averageKind used = .weighted)
      (hwindow : Preset.periodOf used name 14 = .ok length) (hlong : 2 ^ 511 ≤ length) :
      Obstacle prices kind used .integerTooLarge
  | undated (timestamp : Int) (hmem : timestamp ∈ prices.timestamp)
      (hundated : ¬ Summary.Dated timestamp) : Obstacle prices kind used .outsideCalendar

/-- The backtest of a preset returns a report, unless its bars are not accepted or one of the
obstacles is in its way; bars that are not accepted stop it before anything else. -/
theorem backtestPreset_returns_or (kind : StrategyKind) (bars : List (Bar Float))
    (params : Params Float) (asset : Option (Asset Float)) (hnumbers : GivesNumbers kind params) :
    (∃ fault, Prices.ofValidBars bars = .error fault ∧
        (fault.kind = .invalid ∨ fault = .timestampTooLarge) ∧
          backtestPreset bars kind.name params asset = .error fault) ∨
      ∃ prices, Prices.ofValidBars bars = .ok prices ∧
        ((∃ report, backtestPreset bars kind.name params asset = .ok report) ∨
          ∃ fault, Obstacle prices kind (Preset.resolve kind params) fault ∧
            backtestPreset bars kind.name params asset = .error fault) := by
  rw [backtestPreset, StrategyKind.ofName_name]
  change (∃ fault, _ ∧ _ ∧ (Prices.ofValidBars bars >>= fun prices =>
    Report.ofPreset prices kind params asset) = _) ∨ _
  cases hprices : Prices.ofValidBars bars with
  | error fault => exact .inl ⟨fault, rfl, Prices.ofValidBars_failsBy bars fault hprices, rfl⟩
  | ok prices =>
      suffices hfails : FailsBy (Obstacle prices kind (Preset.resolve kind params))
          (Report.ofPreset prices kind params asset) from .inr ⟨prices, rfl, hfails.ok_or_error⟩
      refine (Report.ofPreset_failsBy Summary.dividesSpans_float
        (Prices.ofValidBars_accepted hprices) hnumbers.numeric asset).mono ?_
      rintro fault (⟨rfl, hweighted, name, hname, length, hlength, hheavy⟩ |
        ⟨rfl, x, hmem, hzero⟩ | ⟨rfl, timestamp, hmem, hundated⟩)
      · exact .longWindow name length hname hweighted hlength
          (Nat.not_lt.1 fun hlt => hheavy (Series.weighable_of_lt hlt))
      · exact .zeroClose x hmem hzero
      · exact .undated timestamp hmem hundated

/-- Bars that only close. -/
def barsOf (closes : List Float) : List (Bar Float) :=
  closes.zipIdx.map fun entry =>
    ⟨60000 * (entry.2 : Int), entry.1, entry.1, entry.1, entry.1, 0⟩

/-- No close of these bars is zero, and all of them are in the calendar. -/
theorem plain_threeCloses {prices : Prices Float}
    (hprices : Prices.ofValidBars (barsOf [1, 2, 3]) = .ok prices) :
    ¬ Simulation.HasZeroClose prices ∧
      ∀ timestamp ∈ prices.timestamp, Summary.Dated timestamp := by
  obtain ⟨hclose, htimestamp⟩ := Prices.columns_of_ofValidBars hprices
  have hnonzero : ∀ x ∈ (barsOf [1, 2, 3]).map (·.close), ¬ Arith.same x Arith.zero = true := by
    decide +kernel
  have hdated : ∀ timestamp ∈ (barsOf [1, 2, 3]).map (·.timestamp), Summary.Dated timestamp := by
    unfold Summary.Dated
    decide
  constructor
  · rintro ⟨x, hmem, hzero⟩
    exact hnonzero x (hclose ▸ hmem) hzero
  · exact fun timestamp hmem => hdated timestamp (htimestamp ▸ hmem)

theorem not_obstacle_threeCloses {prices : Prices Float} {used : Params Float} {fault : Fault}
    (hprices : Prices.ofValidBars (barsOf [1, 2, 3]) = .ok prices)
    (hkind : Preset.averageKind used ≠ .weighted) :
    ¬ Obstacle prices .dualAverage used fault := by
  obtain ⟨hnonzero, hdated⟩ := plain_threeCloses hprices
  intro hobstacle
  cases hobstacle with
  | zeroClose x hmem hzero => exact hnonzero ⟨x, hmem, hzero⟩
  | longWindow _ _ _ hweighted => exact hkind hweighted
  | undated timestamp hmem hundated => exact hundated (hdated timestamp hmem)

/-- Two averages over three rising closes: nothing is in the way. -/
theorem backtestPreset_returns_threeCloses :
    ∃ report, backtestPreset (barsOf [1, 2, 3]) StrategyKind.dualAverage.name
      [("fastLength", .int 2)] none = .ok report := by
  have hnumbers : GivesNumbers .dualAverage [("fastLength", .int 2)] := by
    have hsmall : (2 : Int).natAbs.log2 ≤ 1022 := by decide
    exact List.forall_mem_singleton.2 fun _ => Double.exists_ofInt hsmall
  have haccepted : Outcome.fault? (Prices.ofValidBars (barsOf [1, 2, 3])) = none := by
    decide +kernel
  rcases backtestPreset_returns_or .dualAverage (barsOf [1, 2, 3]) _ none hnumbers with
    ⟨fault, hrefused, _⟩ | ⟨prices, hprices, hreport | ⟨fault, hobstacle, _⟩⟩
  · rw [hrefused] at haccepted
    exact nomatch haccepted
  · exact hreport
  · exact absurd hobstacle (not_obstacle_threeCloses hprices (by decide +kernel))

/-- Closes of one and zero are accepted; the position that opens at the second one cannot be
closed. -/
theorem zeroClose_stops :
    (∃ prices, Prices.ofValidBars (barsOf [1, 0]) = .ok prices) ∧
      backtestPreset (barsOf [1, 0]) StrategyKind.dualAverage.name [] none =
        .error .divisionByZero := by
  have haccepted : Outcome.fault? (Prices.ofValidBars (barsOf [1, 0])) = none := by
    decide +kernel
  have hstopped : Outcome.fault? (backtestPreset (barsOf [1, 0]) StrategyKind.dualAverage.name []
      none) = some .divisionByZero := by
    decide +kernel
  exact ⟨Outcome.fault?_eq_none.1 haccepted, Outcome.fault?_eq_some.1 hstopped⟩

end Backtest
