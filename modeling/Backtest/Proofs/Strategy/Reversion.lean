import Backtest.Proofs.Decimal.Widening
import Backtest.Proofs.Prices
import Backtest.Proofs.Simulation.FromFlat
import Backtest.Proofs.Strategy.Trend

/-!
# From a band to the basis

The preset of bands buys below the lower band, sells above the upper one, and is out again at the
basis.  Its four signals can be active at the same bar, but the bands are in order where they are
defined (`bands_ordered`), so no bar admits two entries, or an entry that it ends at once.

So the trades are the round trips of the rule (`bollinger_trades_round_trips`): from flat, in at
the first ready bar beyond a band, out at the first later one at or beyond the basis, and only then
on to the next entry.
-/

namespace Backtest

open Arith Script Simulation

variable {α : Type} [Arith α]

/-! ## The order of the bands -/

namespace Series

variable {xs ys zs : Series α} {bar : Nat}

/-- All functions of a window are undefined, or all of them see the same window. -/
theorem windowed_cases (period : Nat) (past : List α) :
    (∀ value, windowed period value past = nan) ∨
      ∃ latest window, ∀ value, windowed period value past = value latest window := by
  cases past with
  | nil => exact .inl fun value => rfl
  | cons latest past =>
      simp only [windowed]
      split
      · exact .inl fun value => rfl
      · exact .inr ⟨latest, _, fun value => rfl⟩

theorem HoldsAt.trans (hordered : Ordered α) (hxy : HoldsAt atMost xs ys bar)
    (hyz : HoldsAt atMost ys zs bar) : HoldsAt atMost xs zs bar := by
  obtain ⟨x, y, hx, hy, hxy⟩ := hxy
  obtain ⟨y', z, hy', hz, hyz⟩ := hyz
  obtain ⟨rfl⟩ := hy.symm.trans hy'
  exact ⟨x, z, hx, hz, hordered.atMost_trans x y z hxy hyz⟩

theorem IsAbove.atMost (hordered : Ordered α) (habove : IsAbove xs ys bar) :
    HoldsAt atMost ys xs bar := by
  obtain ⟨x, y, hx, hy, hless⟩ := habove
  exact ⟨y, x, hy, hx, (hordered.less_iff.1 hless).1⟩

theorem IsAbove.not_atMost (hordered : Ordered α) (habove : IsAbove xs ys bar) :
    ¬ HoldsAt Arith.atMost xs ys bar := by
  rintro ⟨x', y', hx', hy', hle⟩
  obtain ⟨x, y, hx, hy, hless⟩ := habove
  obtain ⟨rfl⟩ := hx.symm.trans hx'
  obtain ⟨rfl⟩ := hy.symm.trans hy'
  exact Bool.eq_false_iff.1 (hordered.less_iff.1 hless).2 hle

/-- The distance of the bands is not negative where they are defined. -/
theorem atMost_zero_spread (hwidening : Widening α) {width x : α}
    (hwidth : atMost zero width = true) (hdefined : isNaN (width * sqrt x) = false) :
    atMost zero (width * sqrt x) = true := by
  have hroot := (hwidening.mul_spreads.defined hdefined).2
  have hnot {y : α} (hy : NotBelowZero y) (hdefined : isNaN y = false) : atMost zero y = true :=
    hy.resolve_left (Bool.eq_false_iff.1 hdefined)
  exact hnot (hwidening.mul_notBelow width _ hwidth (hnot (hwidening.sqrt_notBelow x) hroot))
    hdefined

theorem lt_length_of_definedAt (hdefined : definedAt bar xs = true) : bar < xs.length := by
  by_contra hbeyond
  rw [definedAt, List.getElem?_eq_none (Nat.not_lt.1 hbeyond)] at hdefined
  exact Bool.false_ne_true hdefined

/-- At a bar the three lines are undefined, or they see the same window. -/
theorem bands_at (period : Nat) (width : α) (hbar : bar < xs.length) :
    (bands period width xs).upper[bar]? = some nan ∨
      ∃ basis variance, (bands period width xs).basis[bar]? = some basis ∧
        (bands period width xs).upper[bar]? = some (basis + width * sqrt variance) ∧
        (bands period width xs).lower[bar]? = some (basis - width * sqrt variance) := by
  simp only [bands, getElem?_trailing _ hbar]
  rcases windowed_cases period (xs.take (bar + 1)).reverse with hundefined | ⟨latest, window, hvalue⟩
  · exact .inl (congrArg some (hundefined _))
  · simp only [hvalue]
    exact .inr ⟨_, _, rfl, rfl, rfl⟩

/-- The basis is between the bands at the ready bars. -/
theorem bands_ordered (hwidening : Widening α) {period : Nat} {width : α} {lines : Bands α}
    (hlines : lines = bands period width xs) (hwidth : atMost zero width = true)
    (hready : ReadyAt [lines.upper, lines.basis, lines.lower] bar) :
    HoldsAt Arith.atMost lines.lower lines.basis bar ∧
      HoldsAt Arith.atMost lines.basis lines.upper bar := by
  cases bar with
  | zero => exact hready.elim
  | succ before =>
      have hupper := (hready lines.upper (by simp)).2
      have hlower := (hready lines.lower (by simp)).2
      have hbar : before + 1 < xs.length := by
        have hlength : lines.upper.length = xs.length := hlines ▸ length_trailing ..
        exact hlength ▸ lt_length_of_definedAt hupper
      rw [hlines] at hupper hlower ⊢
      rcases bands_at period width hbar with hundefined | ⟨basis, variance, hbasis, habove, hbelow⟩
      · rw [definedAt, hundefined, Option.any_some, hwidening.nan_undefined] at hupper
        exact absurd hupper Bool.false_ne_true
      · rw [definedAt, habove, Option.any_some, Bool.not_eq_true'] at hupper
        rw [definedAt, hbelow, Option.any_some, Bool.not_eq_true'] at hlower
        have hspread := atMost_zero_spread hwidening hwidth
          (hwidening.add_spreads.defined hupper).2
        exact ⟨⟨_, _, hbelow, hbasis, hwidening.sub_le _ _ hspread hlower⟩,
          ⟨_, _, hbasis, habove, hwidening.le_add _ _ hspread hupper⟩⟩

end Series

/-! ## The rule -/

namespace Preset

open Series

/-- The bars at which the bands let a position be entered. -/
def EntersBands (close : Series α) (lines : Bands α) (direction : Direction) (bar : Nat) : Prop :=
  ReadyAt [lines.upper, lines.basis, lines.lower] bar ∧
    match direction with
    | .long => IsAbove lines.lower close bar
    | .short => IsAbove close lines.upper bar

/-- The bars at which the basis lets a position be left. -/
def LeavesBands (close : Series α) (lines : Bands α) (direction : Direction) (bar : Nat) : Prop :=
  ReadyAt [lines.upper, lines.basis, lines.lower] bar ∧
    match direction with
    | .long => HoldsAt atMost lines.basis close bar
    | .short => HoldsAt atMost close lines.basis bar

/-- Where the preset of bands opens positions of a direction. -/
def bandOpens (close : Series α) (lines : Bands α) : Direction → Flags
  | .long => readyWhere (ready [lines.upper, lines.basis, lines.lower]) less close lines.lower
  | .short => readyWhere (ready [lines.upper, lines.basis, lines.lower]) above close lines.upper

/-- Where it closes them. -/
def bandCloses (close : Series α) (lines : Bands α) : Direction → Flags
  | .long => readyWhere (ready [lines.upper, lines.basis, lines.lower]) (fun x y => atMost y x)
      close lines.basis
  | .short => readyWhere (ready [lines.upper, lines.basis, lines.lower]) atMost close lines.basis

variable {close : Series α} {lines : Bands α} {bars bar : Nat}

theorem bands_of_ok (prices : Prices α) {params : Params α} {period : Nat} {width : α}
    (hperiod : periodOf params "bbLength" 20 = .ok period)
    (hwidth : (param params "bbMult").toReal = .ok width) :
    bands prices params =
      .ok ⟨ruleSignals (bandOpens prices.close (Series.bands period width prices.close))
        (bandCloses prices.close (Series.bands period width prices.close)), true⟩ := by
  rw [bands, hperiod]
  change ((param params "bbMult").toReal >>= _) = _
  rw [hwidth]
  rfl

section Bars

variable (hclose : close.length = bars) (hlines : lines.Covers bars) (hbar : bar < bars)
include hclose hlines hbar

theorem truthAt_bands (test : α → α → Bool) {xs : Series α} (hxs : xs.length = bars) :
    truthAt bar (readyWhere (ready [lines.upper, lines.basis, lines.lower]) test close xs) = true ↔
      ReadyAt [lines.upper, lines.basis, lines.lower] bar ∧ HoldsAt test close xs bar := by
  apply truthAt_readyWhere_iff (List.cons_ne_nil _ _) _ test hclose hxs hbar
  simp [hlines.upper, hlines.basis, hlines.lower]

theorem truthAt_bandOpens (direction : Direction) :
    truthAt bar (bandOpens close lines direction) = true ↔
      EntersBands close lines direction bar := by
  cases direction with
  | long =>
      rw [bandOpens, truthAt_bands hclose hlines hbar less hlines.lower, holdsAt_less_iff]
      rfl
  | short => exact truthAt_bands hclose hlines hbar above hlines.upper

theorem truthAt_bandCloses (direction : Direction) :
    truthAt bar (bandCloses close lines direction) = true ↔
      LeavesBands close lines direction bar := by
  cases direction with
  | long =>
      rw [bandCloses, truthAt_bands hclose hlines hbar _ hlines.basis, holdsAt_flip]
      rfl
  | short => exact truthAt_bands hclose hlines hbar atMost hlines.basis

end Bars

section Order

variable (hordered : Ordered α)
  (horder : ReadyAt [lines.upper, lines.basis, lines.lower] bar →
    HoldsAt atMost lines.lower lines.basis bar ∧ HoldsAt atMost lines.basis lines.upper bar)
include hordered horder

/-- No close is beyond both bands. -/
theorem EntersBands.not_opposite {direction : Direction}
    (henters : EntersBands close lines direction bar) :
    ¬ EntersBands close lines direction.opposite bar := by
  have hboth : IsAbove lines.lower close bar → ¬ IsAbove close lines.upper bar := by
    intro hbelow habove
    obtain ⟨hlower, hupper⟩ := horder henters.1
    exact hbelow.not_atMost hordered
      ((hlower.trans hordered hupper).trans hordered (habove.atMost hordered))
  cases direction with
  | long => exact fun hopposite => hboth henters.2 hopposite.2
  | short => exact fun hopposite => hboth hopposite.2 henters.2

/-- A close beyond a band has not come back to the basis. -/
theorem EntersBands.not_leaves {direction : Direction}
    (henters : EntersBands close lines direction bar) :
    ¬ LeavesBands close lines direction bar := by
  obtain ⟨hlower, hupper⟩ := horder henters.1
  cases direction with
  | long => exact fun hleaves => henters.2.not_atMost hordered (hlower.trans hordered hleaves.2)
  | short => exact fun hleaves => henters.2.not_atMost hordered (hleaves.2.trans hordered hupper)

end Order

/-- The signals of ordered bands follow the rule. -/
theorem followsRules_bands (hwidening : Widening α) (xs : Series α) (period : Nat) {width : α}
    (hnonnegative : atMost zero width = true) :
    let lines := Series.bands period width xs
    FollowsRules xs.length (ruleSignals (bandOpens xs lines) (bandCloses xs lines))
      (EntersBands xs lines) (LeavesBands xs lines) := by
  intro lines
  have hcovers : lines.Covers xs.length := bands_covers period width xs
  exact followsRules_ruleSignals
    (fun bar hbar direction => truthAt_bandOpens rfl hcovers hbar direction)
    (fun bar hbar direction => truthAt_bandCloses rfl hcovers hbar direction)
    (fun bar _ direction henters =>
      henters.not_opposite hwidening.toOrdered (bands_ordered hwidening rfl hnonnegative))
    (fun bar _ direction henters =>
      henters.not_leaves hwidening.toOrdered (bands_ordered hwidening rfl hnonnegative))

end Preset

open Preset

/-- The preset of bands trades exactly the round trips of its rule, from flat at the first bar on.
Each one ends before the next one begins, so none begins where another one ends, and no position is
turned around. -/
theorem bollinger_trades_round_trips (hwidening : Widening α) {bars : List (Bar α)}
    {prices : Prices α} {params : Params α} {period : Nat} {width : α}
    (hprices : Prices.ofValidBars bars = .ok prices)
    (hperiod : periodOf (resolve .bands params) "bbLength" 20 = .ok period)
    (hwidth : (param (resolve .bands params) "bbMult").toReal = .ok width)
    (hnonnegative : atMost zero width = true) (asset : Option (Asset α)) :
    let lines := Series.bands period width prices.close
    ∃ trips : List Leg,
      (∀ others, RoundTrips prices.length (EntersBands prices.close lines)
        (LeavesBands prices.close lines) 0 others ↔ others = trips) ∧
      (∃ rules, build .bands prices (resolve .bands params) = .ok rules ∧
        legs prices.length rules.signals rules.fromFlat = trips) ∧
      ((∀ x ∈ prices.close, same x zero = false) →
        ∃ trades, tradesOf prices asset trips = .ok trades) ∧
      ∀ report, backtestPreset bars "bollinger" params asset = .ok report →
        tradesOf prices asset trips = .ok report.trades ∧
          report.trades.Pairwise fun first second => first.exit < second.entry := by
  intro lines
  have hbuild := bands_of_ok prices hperiod hwidth
  have hfollows := followsRules_bands hwidening prices.close period hnonnegative
  have hfirst : ¬ ∃ direction, EntersBands prices.close lines direction 0 := fun henters =>
    henters.elim fun _ hready => hready.1
  have htrips {others : List Leg} : RoundTrips prices.length (EntersBands prices.close lines)
      (LeavesBands prices.close lines) 0 others ↔ _ := roundTrips_iff hfollows hfirst
  refine ⟨_, fun others => htrips.trans eq_comm, ⟨_, hbuild, rfl⟩, ?_, ?_⟩
  · intro hcloses
    have haccepted := Prices.ofValidBars_accepted hprices
    exact exists_tradesOf asset haccepted.timestamps hcloses fun leg => legs_bounds true
  · intro report hreport
    obtain ⟨kind, others, rules, hkind, hothers, hrules, htrades, _⟩ :=
      trades_of_backtestPreset hreport
    obtain rfl : StrategyKind.bands = kind := Except.ok.inj hkind
    obtain rfl : prices = others := Except.ok.inj (hprices.symm.trans hothers)
    obtain rfl := Except.ok.inj (hbuild.symm.trans hrules)
    refine ⟨htrades, ?_⟩
    have hoverlap := (htrips.2 rfl).pairwise.2
    have houtlines : (report.trades.map tradeOutline).Pairwise
        fun first second => first.2.1 < second.1 := by
      rw [tradesOf_outline htrades, List.pairwise_map]
      exact hoverlap.imp fun hbefore => Int.ofNat_lt.2 hbefore
    exact List.pairwise_map.1 houtlines

/-- A market that drops below its lower band, comes back beyond the upper one, and rises on. -/
def reboundBars : List (Bar Float) :=
  ([10, 10, 10, 4, 13, 20, 21] : List Float).zipIdx.map fun entry =>
    ⟨60000 * (entry.2 : Int), entry.1, entry.1, entry.1, entry.1, 0⟩

def reboundParams : Params Float := [("bbLength", .int 3), ("bbMult", .int 1)]

/-- The legs that the preset of bands leaves there. -/
def reboundLegs : Outcome (List Leg) := do
  let prices ← Prices.ofValidBars reboundBars
  let rules ← build .bands prices (resolve .bands reboundParams)
  pure (legs prices.length rules.signals rules.fromFlat)

/-- The first round trip ends beyond the upper band, where no second one begins. -/
theorem bollinger_trades_round_trips_rebound :
    Widening Float ∧ ∃ prices width report, Prices.ofValidBars reboundBars = .ok prices ∧
      periodOf (resolve .bands reboundParams) "bbLength" 20 = .ok 3 ∧
      (param (resolve .bands reboundParams) "bbMult").toReal = .ok width ∧
      atMost zero width = true ∧
      backtestPreset reboundBars "bollinger" reboundParams none = .ok report ∧
      let lines := Series.bands 3 width prices.close
      RoundTrips prices.length (EntersBands prices.close lines) (LeavesBands prices.close lines) 0
          [⟨3, 4, .long⟩, ⟨5, 6, .short⟩] ∧
        tradesOf prices none [⟨3, 4, .long⟩, ⟨5, 6, .short⟩] = .ok report.trades ∧
        report.trades.Pairwise fun first second => first.exit < second.entry := by
  have hlegs : reboundLegs.toOption = some [⟨3, 4, .long⟩, ⟨5, 6, .short⟩] := by decide +kernel
  have hrun : Outcome.fault? (backtestPreset reboundBars "bollinger" reboundParams none) = none := by
    decide +kernel
  have hperiod : (periodOf (resolve .bands reboundParams) "bbLength" 20).toOption = some 3 := by
    decide +kernel
  have hwidth : (param (resolve .bands reboundParams) "bbMult").toReal.toOption.any (atMost zero) =
      true := by
    decide +kernel
  obtain ⟨prices, hprices, hlegs⟩ := Outcome.bind_eq_ok.1 (Outcome.toOption_eq_some.1 hlegs)
  obtain ⟨rules, hrules, hlegs⟩ := Outcome.bind_eq_ok.1 hlegs
  obtain ⟨report, hreport⟩ := Outcome.fault?_eq_none.1 hrun
  obtain ⟨width, hwidth, hnonnegative⟩ := (Option.any_eq_true _ _).1 hwidth
  have hperiod := Outcome.toOption_eq_some.1 hperiod
  have hwidth := Outcome.toOption_eq_some.1 hwidth
  obtain ⟨trips, htrips, ⟨others, hothers, hsimulated⟩, _, hreports⟩ :=
    bollinger_trades_round_trips Double.widening hprices hperiod hwidth hnonnegative none
  obtain rfl : rules = others := Except.ok.inj (hrules.symm.trans hothers)
  obtain rfl : trips = [⟨3, 4, .long⟩, ⟨5, 6, .short⟩] :=
    hsimulated.symm.trans (Except.ok.inj hlegs)
  exact ⟨Double.widening, prices, width, report, hprices, hperiod, hwidth, hnonnegative, hreport,
    (htrips _).2 rfl, hreports report hreport⟩

end Backtest
