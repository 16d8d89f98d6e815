import Backtest.Proofs.Series.Mean
import Backtest.Proofs.Series.Strength
import Backtest.Proofs.Series.Window
import Backtest.Proofs.Strategy.Lines
import Backtest.Proofs.Strategy.Rescale

/-!
# The warm-up of a preset

The rules of a preset are its tests, masked: a test counts at the bars at which all series that the
preset needs are defined and were so at the bar before (`build_eq`).  Over numbers that are not
rounded each series starts at a bar and stays defined, so the mask opens once, one bar after the
last start, and never closes again (`ready_eq_tabulate`).

Windows start with their last bar, the relative strength one bar later, and smoothed averages at
once.  So a preset has a bar, known from its parameters alone, before which it never trades and from
which on its mask takes no signal away (`presets_trade_after_warmUp`).
-/

namespace Backtest

open Arith Script Simulation

variable {α : Type} [Arith α]

namespace Preset

open Series

/-! ## Tests and their mask -/

/-- What a preset tests: the series that it needs, and its signals without their mask. -/
structure Tests (α : Type) where
  series : List (Series α)
  signals : List (SignalKind × Flags)
  fromFlat : Bool

/-- The bars at which some tests count. -/
def Tests.mask (tests : Tests α) : Flags := ready tests.series

/-- The rules of some tests that count at ready bars alone. -/
def Tests.rules (tests : Tests α) : Rules :=
  ⟨tests.signals.map fun signal => (signal.1, List.zipWith (· && ·) tests.mask signal.2),
    tests.fromFlat⟩

def sideTests (xs ys : Series α) : Tests α :=
  ⟨[xs, ys],
    [(.openLong, List.zipWith above xs ys), (.openShort, List.zipWith Arith.less xs ys)], false⟩

def orderTests (xs ys zs : Series α) : Tests α :=
  let rising := bothWhere above xs ys zs
  let falling := bothWhere Arith.less xs ys zs
  ⟨[xs, ys, zs],
    [(.openLong, rising), (.openShort, falling),
      (.closeAny, (List.zipWith (· || ·) rising falling).map not)], false⟩

def strengthTests (line : Series α) (oversold overbought : α) : Tests α :=
  let bound (level : α) : Series α := List.replicate line.length level
  ⟨[line],
    [(.openLong, crossover line (bound oversold)),
      (.openShort, crossunder line (bound overbought))], false⟩

def bandTests (close : Series α) (lines : Bands α) : Tests α :=
  ⟨[lines.upper, lines.basis, lines.lower],
    [(.openLong, List.zipWith Arith.less close lines.lower),
      (.openShort, List.zipWith above close lines.upper),
      (.closeLong, List.zipWith (fun x y => Arith.atMost y x) close lines.basis),
      (.closeShort, List.zipWith Arith.atMost close lines.basis)], true⟩

/-- The tests of a preset over a price table, with all of its parameters given. -/
def tests (kind : StrategyKind) (prices : Prices α) (params : Params α) : Outcome (Tests α) :=
  match kind with
  | .dualAverage => do
      let fast ← closeAverage prices params "fastLength"
      let slow ← closeAverage prices params "slowLength"
      pure (sideTests fast slow)
  | .tripleAverage => do
      let fast ← closeAverage prices params "fastLength"
      let mid ← closeAverage prices params "midLength"
      let slow ← closeAverage prices params "slowLength"
      pure (orderTests fast mid slow)
  | .strength => do
      let period ← periodOf params "rsiPeriod" 14
      let oversold ← (param params "oversold").toReal
      let overbought ← (param params "overbought").toReal
      pure (strengthTests (relativeStrength period prices.close) oversold overbought)
  | .convergence => do
      let fast ← periodOf params "fastLength" 14
      let slow ← periodOf params "slowLength" 14
      let signal ← periodOf params "signalLength" 14
      let lines := Series.convergence fast slow signal prices.close
      pure (sideTests lines.line lines.signal)
  | .bands => do
      let period ← periodOf params "bbLength" 20
      let width ← (param params "bbMult").toReal
      pure (bandTests prices.close (Series.bands period width prices.close))

omit [Arith α] in
/-- A mask can be taken into a chain of two tests. -/
theorem readyWhere_readyWhere (ok : Flags) (test : α → α → Bool) (xs ys zs : Series α) :
    readyWhere (readyWhere ok test xs ys) test ys zs =
      List.zipWith (· && ·) ok (bothWhere test xs ys zs) := by
  apply List.ext_getElem?
  intro bar
  simp only [readyWhere, bothWhere, List.getElem?_zipWith]
  cases ok[bar]? <;> cases xs[bar]? <;> cases ys[bar]? <;> cases zs[bar]? <;>
    simp [Bool.and_assoc]

/-- Where a mask is open, two masked tests fail where the tests fail. -/
theorem zipWith_not_or_masked (ok p q : Flags) :
    List.zipWith (fun ready sides => ready && !sides) ok
        (List.zipWith (· || ·) (List.zipWith (· && ·) ok p) (List.zipWith (· && ·) ok q)) =
      List.zipWith (· && ·) ok ((List.zipWith (· || ·) p q).map not) := by
  apply List.ext_getElem?
  intro bar
  simp only [List.getElem?_zipWith, List.getElem?_map]
  rcases ok[bar]? with _ | _ | _ <;> cases p[bar]? <;> cases q[bar]? <;> rfl

theorem order_eq (xs ys zs : Series α) : order xs ys zs = (orderTests xs ys zs).rules := by
  simp only [order, readyWhere_readyWhere, zipWith_not_or_masked]
  rfl

/-- The rules of a preset are its tests at ready bars. -/
theorem build_eq (kind : StrategyKind) (prices : Prices α) (params : Params α) :
    build kind prices params = Tests.rules <$> tests kind prices params := by
  cases kind <;> simp only [tests, map_bind, map_pure, ← order_eq] <;> rfl

/-- Signals that are masked are active at the bars of the mask. -/
theorem activeAt_rules (tests : Tests α) (bar : Nat) : activeAt tests.rules.signals bar =
    if truthAt bar tests.mask then activeAt tests.signals bar else [] := by
  have hmasked (flags : Flags) : truthAt bar (List.zipWith (· && ·) tests.mask flags) =
      (truthAt bar tests.mask && truthAt bar flags) := by
    rw [truthAt, truthAt, truthAt, List.getElem?_zipWith]
    rcases tests.mask[bar]? with _ | _ | _ <;> cases flags[bar]? <;> rfl
  rw [Tests.rules]
  induction tests.signals with
  | nil => exact (ite_self _).symm
  | cons signal rest ih =>
      rw [List.map_cons, activeAt_cons, activeAt_cons, hmasked, ih]
      cases truthAt bar tests.mask <;> rfl

/-! ## The start of a series -/

/-- A series over some bars is undefined up to one of them and defined from there on. -/
structure StartsAt (bars first : Nat) (xs : Series α) : Prop where
  length_eq : xs.length = bars
  defined_eq : ∀ bar < bars, definedAt bar xs = decide (first ≤ bar)

theorem startsAt_tabulate {first bars : Nat} {value : Nat → α}
    (hvalue : ∀ bar, isNaN (value bar) = decide (bar < first)) :
    StartsAt bars first (tabulate bars value) := by
  refine ⟨length_tabulate .., fun bar hbar => ?_⟩
  rw [definedAt, getElem?_tabulate value hbar, Option.any_some, hvalue, ← decide_not,
    decide_eq_decide]
  exact Nat.not_lt

variable {bars : Nat} {series : List (Series α)} {starts : List Nat}

/-- All series are defined from the last start on. -/
theorem all_definedAt (hstarts : List.Forall₂ (StartsAt bars) starts series) {bar : Nat}
    (hbar : bar < bars) : series.all (definedAt bar) = decide (starts.foldr max 0 ≤ bar) := by
  induction hstarts with
  | nil => exact (decide_eq_true (Nat.zero_le bar)).symm
  | cons hfirst _ ih =>
      rw [List.all_cons, hfirst.defined_eq bar hbar, ih, List.foldr_cons, ← Bool.decide_and]
      exact decide_eq_decide.2 Nat.max_le.symm

theorem length_of_startsAt (hstarts : List.Forall₂ (StartsAt bars) starts series) :
    ∀ xs ∈ series, xs.length = bars := by
  induction hstarts with
  | nil => exact nofun
  | cons hfirst _ ih => exact List.forall_mem_cons.2 ⟨hfirst.length_eq, ih⟩

/-- A preset is ready one bar after the last start of its series. -/
theorem ready_eq_tabulate {xs : Series α}
    (hstarts : List.Forall₂ (StartsAt bars) starts (xs :: series)) :
    ready (xs :: series) = tabulate bars fun bar => decide (starts.foldr max 0 < bar) := by
  have hseries : xs :: series ≠ [] := List.cons_ne_nil xs series
  have hlength := length_of_startsAt hstarts
  rw [← length_ready hseries hlength]
  refine eq_tabulate fun bar flag hflag => ?_
  have hbar : bar < bars := by
    rw [← length_ready hseries hlength]
    exact (List.getElem?_eq_some_iff.1 hflag).1
  have htruth : truthAt bar (ready (xs :: series)) = flag := by
    rw [truthAt, hflag]
    rfl
  rw [← htruth]
  cases bar with
  | zero => exact truthAt_zero_ready (xs :: series)
  | succ before =>
      rw [truthAt_ready hseries hlength hbar, all_definedAt hstarts hbar,
        all_definedAt hstarts (Nat.lt_of_succ_lt hbar), ← Bool.decide_and, decide_eq_decide]
      omega

/-! ## The warm-up -/

/-- The averages of a preset are exponential. -/
def IsExponential (params : Params α) : Prop :=
  (param params "maType").toText.map Char.toUpper = "EMA"

instance (params : Params α) : Decidable (IsExponential params) :=
  inferInstanceAs (Decidable (_ = _))

/-- The bar from which on a preset is ready. -/
def warmUp (kind : StrategyKind) (params : Params α) : Outcome Nat :=
  match kind with
  | .dualAverage => do
      let fast ← periodOf params "fastLength" 14
      let slow ← periodOf params "slowLength" 14
      pure (if IsExponential params then 1 else max fast slow)
  | .tripleAverage => do
      let fast ← periodOf params "fastLength" 14
      let mid ← periodOf params "midLength" 14
      let slow ← periodOf params "slowLength" 14
      pure (if IsExponential params then 1 else max fast (max mid slow))
  | .strength => do pure ((← periodOf params "rsiPeriod" 14) + 1)
  | .convergence => pure 1
  | .bands => periodOf params "bbLength" 20

/-! ## Numbers -/

section Numbers

open Backtest.Ideal

theorem startsAt_numbers (count : ℕ) (x : ℕ → ℝ) : StartsAt count 0 (numbers count x) :=
  startsAt_tabulate fun _ => rfl

/-- A window of numbers is full from the bar on that is its last one. -/
theorem startsAt_window {period : ℕ} (hperiod : 1 ≤ period) (count : ℕ) (value : ℕ → ℝ) :
    StartsAt count (period - 1)
      (tabulate count fun bar => if bar + 1 < period then nan else finite (value bar)) := by
  refine startsAt_tabulate fun bar => ?_
  split
  · next hshort => exact (decide_eq_true (by omega)).symm
  · next hlong => exact (decide_eq_false (by omega)).symm

theorem startsAt_bands {period : ℕ} (hperiod : 1 ≤ period) (width : ℝ) (count : ℕ) (x : ℕ → ℝ) :
    let lines := Series.bands period (finite width) (numbers count x)
    StartsAt count (period - 1) lines.upper ∧ StartsAt count (period - 1) lines.basis ∧
      StartsAt count (period - 1) lines.lower := by
  intro lines
  have hlines : lines = _ := bands_numbers hperiod width count x
  rw [hlines]
  exact ⟨startsAt_window hperiod count _, startsAt_window hperiod count _,
    startsAt_window hperiod count _⟩

theorem startsAt_relativeStrength {period : ℕ} (hperiod : 1 ≤ period) (count : ℕ) (x : ℕ → ℝ) :
    StartsAt count period (relativeStrength period (numbers count x)) := by
  rw [relativeStrength_numbers hperiod]
  refine startsAt_tabulate fun bar => ?_
  rw [strengthAt]
  split
  · next hearly => exact (decide_eq_true hearly).symm
  · next hlate => exact (decide_eq_false hlate).symm

/-- No integer is too large for a number. -/
theorem exists_toReal? (value : Scalar Ideal) : ∃ number, value.toReal? = .ok number := by
  cases value with
  | int value => exact ⟨some (finite value), rfl⟩
  | real value => exact ⟨some value, rfl⟩
  | flag value => exact ⟨some (if value then one else zero), rfl⟩
  | text value =>
      rw [Scalar.toReal?, Scalar.toReal]
      cases (Decimal.number? value.toList : Option Ideal) with
      | none => exact ⟨none, rfl⟩
      | some number => exact ⟨some number, rfl⟩
  | missing => exact ⟨none, rfl⟩
  | list items => exact ⟨none, rfl⟩

/-- Every scalar stands for a window or leaves the default. -/
theorem exists_period (value : Scalar Ideal) {default : ℕ} (hdefault : 1 ≤ default) :
    ∃ period, value.period default = .ok period ∧ 1 ≤ period := by
  obtain ⟨number, hnumber⟩ := exists_toReal? value
  have hperiod : ∃ period, value.period default = .ok period := by
    rw [Scalar.period, Scalar.period?, hnumber]
    cases number <;> exact ⟨_, rfl⟩
  obtain ⟨period, hperiod⟩ := hperiod
  exact ⟨period, hperiod, Scalar.one_le_of_period hdefault hperiod⟩

/-- A window starts with its last bar, an exponential average at once. -/
theorem startsAt_average (params : Params Ideal) {period : ℕ} (hperiod : 1 ≤ period) (count : ℕ)
    (x : ℕ → ℝ) : ∃ xs, average (averageKind params) period (numbers count x) = .ok xs ∧
      StartsAt count (if IsExponential params then 0 else period - 1) xs := by
  by_cases hexponential : IsExponential params
  · have hkind : averageKind params = .exponential := if_pos hexponential
    rw [hkind, if_pos hexponential]
    refine ⟨_, rfl, ?_⟩
    rw [exponential_numbers]
    exact startsAt_numbers count _
  · have hkind : averageKind params = if (param params "maType").toText.map Char.toUpper = "WMA"
        then .weighted else .simple := if_neg hexponential
    rw [hkind, if_neg hexponential]
    split
    · exact ⟨_, weighted_numbers hperiod .., startsAt_window hperiod count _⟩
    · refine ⟨_, rfl, ?_⟩
      rw [simple_numbers hperiod]
      exact startsAt_window hperiod count _

/-! ## The presets -/

/-- The tests of a preset can be made, and its warm-up is the bar at which their mask opens. -/
structure OpensAt (kind : StrategyKind) (prices : Prices Ideal) (params : Params Ideal)
    (tests : Tests Ideal) (first : ℕ) : Prop where
  tests_eq : Preset.tests kind prices params = .ok tests
  warmUp_eq : warmUp kind params = .ok first
  mask_eq : tests.mask = tabulate prices.length fun bar => decide (first ≤ bar)

variable {prices : Prices Ideal} (hclose : ∀ x ∈ prices.close, isNaN x = false)
  (params : Params Ideal)
include hclose

theorem exists_closeAverage (name : String) : ∃ period xs, periodOf params name 14 = .ok period ∧
    1 ≤ period ∧ closeAverage prices params name = .ok xs ∧
      StartsAt prices.length (if IsExponential params then 0 else period - 1) xs := by
  obtain ⟨period, hperiod, hpositive⟩ := exists_period (param params name) (by decide : 1 ≤ 14)
  obtain ⟨xs, hxs, hstarts⟩ :=
    startsAt_average params hpositive prices.close.length (numberAt prices.close)
  refine ⟨period, xs, hperiod, hpositive, ?_, hstarts⟩
  rw [closeAverage, periodOf, hperiod, eq_numbers hclose]
  exact hxs

theorem dualAverage_opens : ∃ tests first, OpensAt .dualAverage prices params tests first := by
  obtain ⟨shortest, fast, hshortest, hfirst, hfast, hfastStarts⟩ :=
    exists_closeAverage hclose params "fastLength"
  obtain ⟨longest, slow, hlongest, hsecond, hslow, hslowStarts⟩ :=
    exists_closeAverage hclose params "slowLength"
  refine ⟨sideTests fast slow, _, by rw [tests, hfast, hslow]; rfl,
    by rw [warmUp, hshortest, hlongest]; rfl, ?_⟩
  have hmask := ready_eq_tabulate (.cons hfastStarts (.cons hslowStarts .nil))
  refine hmask.trans (tabulate_congr fun bar _ => ?_)
  rw [decide_eq_decide]
  split <;> simp only [List.foldr_cons, List.foldr_nil] <;> omega

theorem tripleAverage_opens : ∃ tests first, OpensAt .tripleAverage prices params tests first := by
  obtain ⟨shortest, fast, hshortest, hfirst, hfast, hfastStarts⟩ :=
    exists_closeAverage hclose params "fastLength"
  obtain ⟨middle, mid, hmiddle, hsecond, hmid, hmidStarts⟩ :=
    exists_closeAverage hclose params "midLength"
  obtain ⟨longest, slow, hlongest, hthird, hslow, hslowStarts⟩ :=
    exists_closeAverage hclose params "slowLength"
  refine ⟨orderTests fast mid slow, _, by rw [tests, hfast, hmid, hslow]; rfl,
    by rw [warmUp, hshortest, hmiddle, hlongest]; rfl, ?_⟩
  have hmask := ready_eq_tabulate
    (.cons hfastStarts (.cons hmidStarts (.cons hslowStarts .nil)))
  refine hmask.trans (tabulate_congr fun bar _ => ?_)
  rw [decide_eq_decide]
  split <;> simp only [List.foldr_cons, List.foldr_nil] <;> omega

theorem strength_opens {oversold overbought : Ideal}
    (hoversold : (param params "oversold").toReal = .ok oversold)
    (hoverbought : (param params "overbought").toReal = .ok overbought) :
    ∃ tests first, OpensAt .strength prices params tests first := by
  obtain ⟨period, hperiod, hpositive⟩ :=
    exists_period (param params "rsiPeriod") (by decide : 1 ≤ 14)
  refine ⟨strengthTests (relativeStrength period prices.close) oversold overbought, period + 1,
    by rw [tests, periodOf, hperiod, hoversold, hoverbought]; rfl,
    by rw [warmUp, periodOf, hperiod]; rfl, ?_⟩
  have hstarts := startsAt_relativeStrength hpositive prices.length (numberAt prices.close)
  rw [Prices.length, ← eq_numbers hclose] at hstarts
  have hmask := ready_eq_tabulate (.cons hstarts .nil)
  refine hmask.trans (tabulate_congr fun bar _ => ?_)
  rw [decide_eq_decide, List.foldr_cons, List.foldr_nil, Nat.max_zero, Nat.succ_le_iff]

theorem convergence_opens : ∃ tests first, OpensAt .convergence prices params tests first := by
  obtain ⟨fast, hfast, _⟩ := exists_period (param params "fastLength") (by decide : 1 ≤ 14)
  obtain ⟨slow, hslow, _⟩ := exists_period (param params "slowLength") (by decide : 1 ≤ 14)
  obtain ⟨signal, hsignal, _⟩ := exists_period (param params "signalLength") (by decide : 1 ≤ 14)
  let lines := Series.convergence fast slow signal prices.close
  refine ⟨sideTests lines.line lines.signal, 1,
    by rw [tests, periodOf, periodOf, periodOf, hfast, hslow, hsignal]; rfl, rfl, ?_⟩
  have hnumbers : ∃ difference, lines.line = numbers prices.length difference := by
    have hline : lines.line =
        List.zipWith (· - ·) (exponential fast prices.close) (exponential slow prices.close) := rfl
    rw [hline, eq_numbers hclose, exponential_numbers, exponential_numbers]
    exact ⟨_, zipWith_tabulate ..⟩
  obtain ⟨difference, hdifference⟩ := hnumbers
  have hline : StartsAt prices.length 0 lines.line := hdifference ▸ startsAt_numbers ..
  have hsignal : StartsAt prices.length 0 lines.signal := by
    have hsmoothed : lines.signal = exponential signal lines.line := rfl
    rw [hsmoothed, hdifference, exponential_numbers]
    exact startsAt_numbers _ _
  exact ready_eq_tabulate (.cons hline (.cons hsignal .nil))

theorem bands_opens {width : ℝ} (hwidth : (param params "bbMult").toReal = .ok (finite width)) :
    ∃ tests first, OpensAt .bands prices params tests first := by
  obtain ⟨period, hperiod, hpositive⟩ :=
    exists_period (param params "bbLength") (by decide : 1 ≤ 20)
  let lines := Series.bands period (finite width) prices.close
  refine ⟨bandTests prices.close lines, period, by rw [tests, periodOf, hperiod, hwidth]; rfl,
    by rw [warmUp, periodOf, hperiod], ?_⟩
  have hstarts := startsAt_bands hpositive width prices.length (numberAt prices.close)
  rw [Prices.length, ← eq_numbers hclose] at hstarts
  obtain ⟨hupper, hbasis, hlower⟩ := hstarts
  have hmask := ready_eq_tabulate (.cons hupper (.cons hbasis (.cons hlower .nil)))
  refine hmask.trans (tabulate_congr fun bar _ => ?_)
  rw [decide_eq_decide]
  simp only [List.foldr_cons, List.foldr_nil]
  omega

/-- The levels of a preset stand for numbers, and the width of its bands for a finite one. -/
def HasNumbers (kind : StrategyKind) (params : Params Ideal) : Prop :=
  match kind with
  | .strength => (∃ level, (param params "oversold").toReal = .ok level) ∧
      ∃ level, (param params "overbought").toReal = .ok level
  | .bands => ∃ width, (param params "bbMult").toReal = .ok (finite width)
  | .dualAverage | .tripleAverage | .convergence => True

theorem exists_opensAt {kind : StrategyKind} {params : Params Ideal}
    (hnumbers : HasNumbers kind params) :
    ∃ tests first, OpensAt kind prices params tests first := by
  cases kind with
  | dualAverage => exact dualAverage_opens hclose params
  | tripleAverage => exact tripleAverage_opens hclose params
  | strength =>
      obtain ⟨⟨_, hoversold⟩, _, hoverbought⟩ := hnumbers
      exact strength_opens hclose params hoversold hoverbought
  | convergence => exact convergence_opens hclose params
  | bands =>
      obtain ⟨_, hwidth⟩ := hnumbers
      exact bands_opens hclose params hwidth

end Numbers

end Preset

/-! ## Trades after the warm-up -/

open Preset

/-- A preset gives no signal before a bar and all of its signals from that bar on, so that its
trades are all entered from there on. -/
structure WarmsUp (kind : StrategyKind) (prices : Prices Ideal) (params : Params Ideal)
    (tests : Tests Ideal) (first : ℕ) : Prop where
  opens : OpensAt kind prices (resolve kind params) tests first
  build_eq : build kind prices (resolve kind params) = .ok tests.rules
  early : ∀ bar < prices.length, bar < first → activeAt tests.rules.signals bar = []
  late : ∀ bar < prices.length, first ≤ bar →
    activeAt tests.rules.signals bar = activeAt tests.signals bar
  entries : ∀ asset report, Report.ofPreset prices kind params asset = .ok report →
    ∀ trade ∈ report.trades, (first : ℤ) ≤ trade.entry

variable {kind : StrategyKind} {prices : Prices Ideal} {params : Params Ideal}
  {tests : Tests Ideal} {first : ℕ}

theorem Preset.OpensAt.truthAt_mask (hopens : OpensAt kind prices params tests first) {bar : ℕ}
    (hbar : bar < prices.length) : truthAt bar tests.mask = decide (first ≤ bar) := by
  rw [hopens.mask_eq, truthAt, Series.getElem?_tabulate _ hbar]
  rfl

theorem Preset.OpensAt.le_entry (hopens : OpensAt kind prices params tests first) {leg : Leg}
    (hleg : leg ∈ legs prices.length tests.rules.signals tests.rules.fromFlat) :
    first ≤ leg.entry := by
  have hjustified := legs_justified _ _ _ leg hleg
  obtain ⟨signal, hsignal, _⟩ := hjustified.opened
  by_contra hearly
  have hbar := hjustified.ordered.trans_lt hjustified.lt_bars
  rw [activeAt_rules, hopens.truthAt_mask hbar, decide_eq_false hearly] at hsignal
  exact List.not_mem_nil hsignal

/-- Every preset has a bar before which it never trades and from which on it acts on every signal
of its tests. -/
theorem presets_trade_after_warmUp (hclose : ∀ x ∈ prices.close, isFinite x = true)
    (hnumbers : HasNumbers kind (resolve kind params)) :
    ∃ tests first, WarmsUp kind prices params tests first := by
  have hdefined : ∀ x ∈ prices.close, isNaN x = false := by
    intro x hx
    cases x with
    | undefined => exact absurd (hclose _ hx) Bool.false_ne_true
    | finite value => rfl
  obtain ⟨tests, first, hopens⟩ := exists_opensAt hdefined hnumbers
  have hbuild : build kind prices (resolve kind params) = .ok tests.rules := by
    rw [build_eq, hopens.tests_eq]
    rfl
  refine ⟨tests, first, hopens, hbuild, fun bar hbar hearly => ?_, fun bar hbar hlate => ?_,
    fun asset report hreport trade htrade => ?_⟩
  · rw [activeAt_rules, hopens.truthAt_mask hbar, decide_eq_false (Nat.not_le.2 hearly)]
    rfl
  · rw [activeAt_rules, hopens.truthAt_mask hbar, decide_eq_true hlate]
    rfl
  · rw [Report.ofPreset, hbuild] at hreport
    obtain ⟨htrades, _⟩ := Report.trades_of_ofSignals hreport
    obtain ⟨leg, hleg, htradeOf⟩ := exists_leg_of_mem htrades trade htrade
    have hentry : trade.entry = leg.entry := congrArg Prod.fst (tradeOf_outline htradeOf)
    rw [hentry]
    exact Int.ofNat_le.2 (hopens.le_entry hleg)

/-- Bands over two bars, as wide as they are without a setting. -/
def narrowParams : Params Ideal := [("bbLength", .int 2)]

/-- Bands over two bars count from the third bar of a market on, and the market of one trade enters
it at its second bar. -/
theorem presets_trade_after_warmUp_doubling :
    (∀ x ∈ doublingPrices.close, isFinite x = true) ∧
    HasNumbers .bands (resolve .bands narrowParams) ∧
    (∃ tests, WarmsUp .bands doublingPrices narrowParams tests 2 ∧
      tests.mask = [false, false, true]) ∧
    ∃ tests first report, WarmsUp .dualAverage doublingPrices doublingParams tests first ∧
      Report.ofPreset doublingPrices .dualAverage doublingParams none = .ok report ∧
      report.trades.map tradeOutline = [(1, 2, .long)] ∧ first ≤ 1 := by
  have hclose : ∀ x ∈ doublingPrices.close, isFinite x = true := by
    simp only [doublingPrices, List.forall_mem_cons]
    exact ⟨rfl, rfl, rfl, List.forall_mem_nil _⟩
  have hnumbers : HasNumbers .bands (resolve .bands narrowParams) := ⟨_, rfl⟩
  have hwarmUp : warmUp .bands (resolve .bands narrowParams) = .ok 2 := by
    have hparam : param (resolve .bands narrowParams) "bbLength" = .int 2 := rfl
    rw [warmUp, periodOf, hparam, Scalar.period_eq rfl, Ideal.windowLength_finite]
    rfl
  refine ⟨hclose, hnumbers, ?_, ?_⟩
  · obtain ⟨tests, first, hwarm⟩ := presets_trade_after_warmUp hclose hnumbers
    obtain rfl : first = 2 := Except.ok.inj (hwarm.opens.warmUp_eq.symm.trans hwarmUp)
    exact ⟨tests, hwarm, hwarm.opens.mask_eq⟩
  · obtain ⟨report, hreport, houtline⟩ := backtestPreset_doubling
    have hrun : Report.ofPreset doublingPrices .dualAverage doublingParams none = .ok report :=
      hreport
    have hwarms : ∃ tests first, WarmsUp .dualAverage doublingPrices doublingParams tests first :=
      presets_trade_after_warmUp hclose trivial
    obtain ⟨tests, first, hwarm⟩ := hwarms
    refine ⟨tests, first, report, hwarm, hrun, houtline, ?_⟩
    have hmem : (1, 2, .long) ∈ report.trades.map tradeOutline := houtline ▸ List.mem_cons_self
    obtain ⟨trade, htrade, hentry⟩ := List.mem_map.1 hmem
    have hle := hwarm.entries none report hrun trade htrade
    have hfirst : trade.entry = 1 := congrArg Prod.fst hentry
    omega

end Backtest
