import Backtest.Proofs.Decimal.Order
import Backtest.Proofs.Simulation.Side
import Backtest.Proofs.Strategy.Lines

/-!
# The sides of the trend presets

Where a trend preset stands after a bar is a matter of its lines alone.  With two lines, it is on
the side of the last ready bar at which they had different values, and flat before the first such
bar; with three lines, it is long where they are in falling order, short where they are in rising
order, and flat at all other ready bars (`trend_presets_take_sides`).
-/

namespace Backtest

open Arith Script Simulation

variable {α : Type} [Arith α]

/-! ## Lines at a bar -/

namespace Series

/-- All series are defined at a bar and at the bar before. -/
def ReadyAt (series : List (Series α)) : Nat → Prop
  | 0 => False
  | bar + 1 => ∀ xs ∈ series, definedAt bar xs = true ∧ definedAt (bar + 1) xs = true

/-- A test holds between the values of two series at a bar. -/
def HoldsAt (test : α → α → Bool) (xs ys : Series α) (bar : Nat) : Prop :=
  ∃ x y, xs[bar]? = some x ∧ ys[bar]? = some y ∧ test x y = true

/-- The first series is above the second one at a bar. -/
def IsAbove (xs ys : Series α) (bar : Nat) : Prop := HoldsAt (fun x y => less y x) xs ys bar

/-- Two series are ready at a bar and have different values there. -/
def ApartAt (xs ys : Series α) (bar : Nat) : Prop :=
  ReadyAt [xs, ys] bar ∧ HoldsAt (fun x y => !same x y) xs ys bar

/-- The last bar, up to a given one, at which two series are apart. -/
structure LastApart (xs ys : Series α) (bar last : Nat) : Prop where
  reached : last ≤ bar
  apart : ApartAt xs ys last
  latest : ∀ later, last < later → later ≤ bar → ¬ ApartAt xs ys later

/-- The side of the first series against the second one when they were last apart. -/
inductive LastSide (xs ys : Series α) (bar : Nat) : Option Direction → Prop where
  | long (last : Nat) (hlast : LastApart xs ys bar last) (habove : IsAbove xs ys last) :
      LastSide xs ys bar (some .long)
  | short (last : Nat) (hlast : LastApart xs ys bar last) (hbelow : IsAbove ys xs last) :
      LastSide xs ys bar (some .short)
  | flat (hnever : ∀ earlier ≤ bar, ¬ ApartAt xs ys earlier) : LastSide xs ys bar none

/-- A side that follows the order of three series at a bar. -/
structure OrderSide (xs ys zs : Series α) (bar : Nat) (side : Option Direction) : Prop where
  long : side = some .long ↔ IsAbove xs ys bar ∧ IsAbove ys zs bar
  short : side = some .short ↔ IsAbove ys xs bar ∧ IsAbove zs ys bar
  flat : side = none ↔
    ¬ (IsAbove xs ys bar ∧ IsAbove ys zs bar) ∧ ¬ (IsAbove ys xs bar ∧ IsAbove zs ys bar)

variable {xs ys zs : Series α} {bar bars : Nat}

omit [Arith α] in
theorem holdsAt_flip {test : α → α → Bool} :
    HoldsAt (fun x y => test y x) xs ys bar ↔ HoldsAt test ys xs bar := by
  constructor <;> exact fun ⟨x, y, hx, hy, htest⟩ => ⟨y, x, hy, hx, htest⟩

theorem holdsAt_less_iff : HoldsAt less xs ys bar ↔ IsAbove ys xs bar := holdsAt_flip.symm

omit [Arith α] in
theorem truthAt_test_iff {test : α → α → Bool} (hxs : xs.length = bars) (hys : ys.length = bars)
    (hbar : bar < bars) :
    truthAt bar (List.zipWith test xs ys) = true ↔ HoldsAt test xs ys bar := by
  obtain ⟨x, y, hx, hy, htest⟩ := truthAt_test test hxs hys hbar
  rw [htest]
  constructor
  · exact fun hholds => ⟨x, y, hx, hy, hholds⟩
  · rintro ⟨x', y', hx', hy', hholds⟩
    obtain ⟨rfl⟩ := hx.symm.trans hx'
    obtain ⟨rfl⟩ := hy.symm.trans hy'
    exact hholds

theorem truthAt_ready_iff {series : List (Series α)} (hseries : series ≠ [])
    (hlength : ∀ xs ∈ series, xs.length = bars) (hbar : bar < bars) :
    truthAt bar (Preset.ready series) = true ↔ ReadyAt series bar := by
  cases bar with
  | zero =>
      rw [Preset.truthAt_zero_ready, ReadyAt]
      exact iff_of_false Bool.false_ne_true id
  | succ bar =>
      rw [Preset.truthAt_ready hseries hlength hbar, Bool.and_eq_true, List.all_eq_true,
        List.all_eq_true, ReadyAt]
      exact ⟨fun h xs hxs => ⟨h.1 xs hxs, h.2 xs hxs⟩, fun h => ⟨fun xs hxs => (h xs hxs).1,
        fun xs hxs => (h xs hxs).2⟩⟩

/-- A series is not above another one where it is below it. -/
theorem not_isAbove_of_isAbove (hordered : Ordered α) (habove : IsAbove xs ys bar) :
    ¬ IsAbove ys xs bar := by
  rintro ⟨y', x', hy', hx', hbelow⟩
  obtain ⟨x, y, hx, hy, habove⟩ := habove
  obtain ⟨rfl⟩ := hx.symm.trans hx'
  obtain ⟨rfl⟩ := hy.symm.trans hy'
  exact Bool.eq_false_iff.1 (hordered.not_less_of_less habove) hbelow

/-- Two series that are apart are one above the other. -/
theorem ApartAt.isAbove_or (hordered : Ordered α) (hapart : ApartAt xs ys bar) :
    IsAbove xs ys bar ∨ IsAbove ys xs bar := by
  obtain ⟨hready, x, y, hx, hy, hdiffer⟩ := hapart
  cases bar with
  | zero => exact hready.elim
  | succ before =>
      have hdefined {zs : Series α} {z : α} (hmem : zs ∈ [xs, ys]) (hz : zs[before + 1]? = some z) :
          isNaN z = false := by
        have hnow := (hready zs hmem).2
        rwa [definedAt, hz, Option.any_some, Bool.not_eq_true'] at hnow
      have htotal := hordered.atMost_total x y (hdefined List.mem_cons_self hx)
        (hdefined (List.mem_cons_of_mem _ List.mem_cons_self) hy)
      rw [Bool.not_eq_true', hordered.same_eq] at hdiffer
      rcases htotal with hle | hle
      · rw [hle, Bool.true_and] at hdiffer
        exact .inr ⟨y, x, hy, hx, hordered.less_iff.2 ⟨hle, hdiffer⟩⟩
      · rw [hle, Bool.and_true] at hdiffer
        exact .inl ⟨x, y, hx, hy, hordered.less_iff.2 ⟨hle, hdiffer⟩⟩

/-- Two ready series are apart where one is above the other. -/
theorem ReadyAt.apartAt (hordered : Ordered α) (hready : ReadyAt [xs, ys] bar)
    (hsides : IsAbove xs ys bar ∨ IsAbove ys xs bar) : ApartAt xs ys bar := by
  refine ⟨hready, ?_⟩
  rcases hsides with ⟨x, y, hx, hy, hless⟩ | ⟨y, x, hy, hx, hless⟩
  · exact ⟨x, y, hx, hy, congrArg not (hordered.not_same_of_less hless).2⟩
  · exact ⟨x, y, hx, hy, congrArg not (hordered.not_same_of_less hless).1⟩

/-- The last bar of two series that are apart stays the last one until they are apart again. -/
theorem LastApart.succ {last : Nat} (hlast : LastApart xs ys bar last)
    (hsame : ¬ ApartAt xs ys (bar + 1)) : LastApart xs ys (bar + 1) last := by
  refine ⟨Nat.le_succ_of_le hlast.reached, hlast.apart, fun later hlater hle => ?_⟩
  rcases Nat.le_succ_iff.1 hle with hle | rfl
  · exact hlast.latest later hlater hle
  · exact hsame

theorem LastApart.now (hapart : ApartAt xs ys bar) : LastApart xs ys bar bar :=
  ⟨Nat.le_refl bar, hapart, fun _ hlater hle => absurd hle (Nat.not_le.2 hlater)⟩

theorem LastSide.succ {side : Option Direction} (hside : LastSide xs ys bar side)
    (hsame : ¬ ApartAt xs ys (bar + 1)) : LastSide xs ys (bar + 1) side := by
  cases hside with
  | long last hlast habove => exact .long last (hlast.succ hsame) habove
  | short last hlast hbelow => exact .short last (hlast.succ hsame) hbelow
  | flat hnever =>
      refine .flat fun earlier hle => ?_
      rcases Nat.le_succ_iff.1 hle with hle | rfl
      · exact hnever earlier hle
      · exact hsame

end Series

/-! ## Two lines -/

namespace Preset

open Series

variable {xs ys zs : Series α} {bar bars : Nat}

/-- At a bar, two lines set the side on which the first one is; otherwise the side stays. -/
theorem sideAfter_sides (xs ys : Series α) (hbar : bar + 1 < bars) :
    sideAfter bars (sides xs ys).signals (sides xs ys).fromFlat (bar + 1) =
      if truthAt (bar + 1) (readyWhere (ready [xs, ys]) less xs ys) then some .short
      else if truthAt (bar + 1) (readyWhere (ready [xs, ys]) above xs ys) then some .long
      else sideAfter bars (sides xs ys).signals (sides xs ys).fromFlat bar := by
  have htargets : ∀ signal ∈ (sides xs ys).signals, signal.1.target?.isSome = true := by
    simp [sides, SignalKind.target?]
  change sideAfter bars _ false (bar + 1) = _
  rw [sideAfter_succ htargets hbar, sides, activeAt_cons, activeAt_cons]
  cases truthAt (bar + 1) (readyWhere (ready [xs, ys]) above xs ys) <;>
    cases truthAt (bar + 1) (readyWhere (ready [xs, ys]) less xs ys) <;> rfl

theorem truthAt_readyWhere_iff {series : List (Series α)} (hseries : series ≠ [])
    (hlength : ∀ zs ∈ series, zs.length = bars) (test : α → α → Bool) (hxs : xs.length = bars)
    (hys : ys.length = bars) (hbar : bar < bars) :
    truthAt bar (readyWhere (ready series) test xs ys) = true ↔
      ReadyAt series bar ∧ HoldsAt test xs ys bar := by
  rw [truthAt_readyWhere (length_ready hseries hlength) test hxs hys hbar, Bool.and_eq_true,
    truthAt_ready_iff hseries hlength hbar, truthAt_test_iff hxs hys hbar]

/-- Two lines are traded on the side of the last bar at which they were apart. -/
theorem lastSide_sides (hordered : Ordered α) (hxs : xs.length = bars) (hys : ys.length = bars)
    (hbar : bar < bars) :
    LastSide xs ys bar (sideAfter bars (sides xs ys).signals (sides xs ys).fromFlat bar) := by
  induction bar with
  | zero =>
      rw [sideAfter_zero]
      refine .flat fun earlier hle hapart => ?_
      rw [Nat.le_zero.1 hle] at hapart
      exact hapart.1
  | succ bar ih =>
      have hbefore := ih (Nat.lt_of_succ_lt hbar)
      have hlength : ∀ zs ∈ [xs, ys], zs.length = bars := by simp [hxs, hys]
      have hmask (test : α → α → Bool) :=
        truthAt_readyWhere_iff (List.cons_ne_nil _ _) hlength test hxs hys hbar
      rw [sideAfter_sides xs ys hbar]
      split
      case isTrue hbelow =>
        obtain ⟨hready, hbelow⟩ := (hmask less).1 hbelow
        have hbelow := holdsAt_less_iff.1 hbelow
        exact .short _ (.now (hready.apartAt hordered (.inr hbelow))) hbelow
      case isFalse hbelow =>
        split
        case isTrue habove =>
          obtain ⟨hready, habove⟩ := (hmask above).1 habove
          exact .long _ (.now (hready.apartAt hordered (.inl habove))) habove
        case isFalse habove =>
          refine hbefore.succ fun hapart => ?_
          rcases hapart.isAbove_or hordered with hside | hside
          · exact habove ((hmask above).2 ⟨hapart.1, hside⟩)
          · exact hbelow ((hmask less).2 ⟨hapart.1, holdsAt_less_iff.2 hside⟩)

/-! ## Three lines -/

theorem truthAt_readyWhere_readyWhere_iff (test : α → α → Bool) (hxs : xs.length = bars)
    (hys : ys.length = bars) (hzs : zs.length = bars) (hbar : bar + 1 < bars)
    (hready : ReadyAt [xs, ys, zs] (bar + 1)) :
    truthAt (bar + 1) (readyWhere (readyWhere (ready [xs, ys, zs]) test xs ys) test ys zs) = true ↔
      HoldsAt test xs ys (bar + 1) ∧ HoldsAt test ys zs (bar + 1) := by
  have hlength : ∀ others ∈ [xs, ys, zs], others.length = bars := by simp [hxs, hys, hzs]
  have hmask := length_ready (List.cons_ne_nil _ _) hlength
  rw [truthAt_readyWhere (length_readyWhere hmask test hxs hys) test hys hzs hbar,
    truthAt_readyWhere hmask test hxs hys hbar, Bool.and_eq_true, Bool.and_eq_true,
    truthAt_ready_iff (List.cons_ne_nil _ _) hlength hbar, truthAt_test_iff hxs hys hbar,
    truthAt_test_iff hys hzs hbar, and_iff_right hready]

/-- At a ready bar, three lines set the side of their order, whatever it was before. -/
theorem sideAfter_order (hxs : xs.length = bars) (hys : ys.length = bars) (hzs : zs.length = bars)
    (hbar : bar + 1 < bars) (hready : ReadyAt [xs, ys, zs] (bar + 1)) :
    let rising := readyWhere (readyWhere (ready [xs, ys, zs]) above xs ys) above ys zs
    let falling := readyWhere (readyWhere (ready [xs, ys, zs]) less xs ys) less ys zs
    sideAfter bars (order xs ys zs).signals (order xs ys zs).fromFlat (bar + 1) =
      if truthAt (bar + 1) falling then some .short
      else if truthAt (bar + 1) rising then some .long
      else none := by
  intro rising falling
  have htargets : ∀ signal ∈ (order xs ys zs).signals, signal.1.target?.isSome = true := by
    simp [order, SignalKind.target?]
  have hlength : ∀ others ∈ [xs, ys, zs], others.length = bars := by simp [hxs, hys, hzs]
  have hmask := length_ready (List.cons_ne_nil _ _) hlength
  have hside (test : α → α → Bool) := length_readyWhere
    (length_readyWhere hmask test hxs hys) test hys hzs
  have hopen := (truthAt_ready_iff (List.cons_ne_nil _ _) hlength hbar).2 hready
  have hneither : truthAt (bar + 1) (List.zipWith (fun ready sides => ready && !sides)
      (ready [xs, ys, zs]) (List.zipWith (· || ·) rising falling)) =
        !(truthAt (bar + 1) rising || truthAt (bar + 1) falling) := by
    rw [truthAt_zipWith _ hmask (length_zipWith_of (hside above) (hside less)) hbar, hopen,
      truthAt_zipWith _ (hside above) (hside less) hbar, Bool.true_and]
  change sideAfter bars _ false (bar + 1) = _
  rw [sideAfter_succ htargets hbar]
  change (List.filterMap SignalKind.target? (activeAt
    [(.openLong, rising), (.openShort, falling), (.closeAny, _)] (bar + 1))).getLast?.getD _ = _
  rw [activeAt_cons, activeAt_cons, activeAt_cons, hneither]
  cases truthAt (bar + 1) rising <;> cases truthAt (bar + 1) falling <;> rfl

theorem orderSide_order (hordered : Ordered α) (hxs : xs.length = bars) (hys : ys.length = bars)
    (hzs : zs.length = bars) (hbar : bar < bars) (hready : ReadyAt [xs, ys, zs] bar) :
    OrderSide xs ys zs bar
      (sideAfter bars (order xs ys zs).signals (order xs ys zs).fromFlat bar) := by
  cases bar with
  | zero => exact hready.elim
  | succ bar =>
      rw [sideAfter_order hxs hys hzs hbar hready]
      have hrising := truthAt_readyWhere_readyWhere_iff above hxs hys hzs hbar hready
      have hfalling := truthAt_readyWhere_readyWhere_iff less hxs hys hzs hbar hready
      rw [holdsAt_less_iff, holdsAt_less_iff] at hfalling
      have hboth : IsAbove xs ys (bar + 1) ∧ IsAbove ys zs (bar + 1) →
          ¬ (IsAbove ys xs (bar + 1) ∧ IsAbove zs ys (bar + 1)) :=
        fun hlong hshort => not_isAbove_of_isAbove hordered hlong.1 hshort.1
      split
      case isTrue hfalls =>
        have hshort := hfalling.1 hfalls
        exact ⟨iff_of_false nofun fun hlong => hboth hlong hshort, iff_of_true rfl hshort,
          iff_of_false nofun fun hneither => hneither.2 hshort⟩
      case isFalse hfalls =>
        have hshort := mt hfalling.2 hfalls
        split
        case isTrue hrises =>
          have hlong := hrising.1 hrises
          exact ⟨iff_of_true rfl hlong, iff_of_false nofun hshort,
            iff_of_false nofun fun hneither => hneither.1 hlong⟩
        case isFalse hrises =>
          have hlong := mt hrising.2 hrises
          exact ⟨iff_of_false nofun hlong, iff_of_false nofun hshort,
            iff_of_true rfl ⟨hlong, hshort⟩⟩

/-! ## The presets -/

/-- The side that a simulation of rules is on after a bar. -/
def Rules.sideAfter (rules : Rules) (bars bar : Nat) : Option Direction :=
  Simulation.sideAfter bars rules.signals rules.fromFlat bar

end Preset

open Series Preset

/-- After each bar a trend preset is on the side that its lines give: with two lines, that of the
last ready bar at which they had different values, and with three lines, at a ready bar, that of
their order. -/
theorem trend_presets_take_sides (hordered : Ordered α) (prices : Prices α) (params : Params α)
    (rules : Rules) :
    (build .dualAverage prices params = .ok rules →
      ∃ fast slow, closeAverage prices params "fastLength" = .ok fast ∧
        closeAverage prices params "slowLength" = .ok slow ∧
        ∀ bar < prices.length, LastSide fast slow bar (rules.sideAfter prices.length bar)) ∧
    (build .convergence prices params = .ok rules →
      ∃ fast slow signal, periodOf params "fastLength" 14 = .ok fast ∧
        periodOf params "slowLength" 14 = .ok slow ∧
        periodOf params "signalLength" 14 = .ok signal ∧
        let lines := Series.convergence fast slow signal prices.close
        ∀ bar < prices.length,
          LastSide lines.line lines.signal bar (rules.sideAfter prices.length bar)) ∧
    (build .tripleAverage prices params = .ok rules →
      ∃ fast mid slow, closeAverage prices params "fastLength" = .ok fast ∧
        closeAverage prices params "midLength" = .ok mid ∧
        closeAverage prices params "slowLength" = .ok slow ∧
        ∀ bar < prices.length, ReadyAt [fast, mid, slow] bar →
          OrderSide fast mid slow bar (rules.sideAfter prices.length bar)) := by
  refine ⟨fun hrules => ?_, fun hrules => ?_, fun hrules => ?_⟩
  · obtain ⟨fast, slow, hfast, hslow, rfl⟩ := dualAverage_eq_ok hrules
    exact ⟨fast, slow, hfast, hslow, fun bar hbar => lastSide_sides hordered
      (length_closeAverage hfast) (length_closeAverage hslow) hbar⟩
  · obtain ⟨fast, slow, signal, hfast, hslow, hsignal, rfl⟩ := convergence_eq_ok hrules
    have hlines := convergence_covers fast slow signal prices.close
    exact ⟨fast, slow, signal, hfast, hslow, hsignal, fun bar hbar =>
      lastSide_sides hordered hlines.line hlines.signal hbar⟩
  · obtain ⟨fast, mid, slow, hfast, hmid, hslow, rfl⟩ := tripleAverage_eq_ok hrules
    exact ⟨fast, mid, slow, hfast, hmid, hslow, fun bar hbar hready => orderSide_order hordered
      (length_closeAverage hfast) (length_closeAverage hmid) (length_closeAverage hslow) hbar
      hready⟩

/-- A market that rises, falls, rests and rises again. -/
def swingPrices : Prices Exact :=
  let column : Series Exact :=
    [.finite 10, .finite 12, .finite 11, .finite 9, .finite 9, .finite 14, .finite 13]
  ⟨[0, 1, 2, 3, 4, 5, 6], column, column, column, column, column⟩

def swingParams : Params Exact :=
  [("fastLength", .int 1), ("midLength", .int 2), ("slowLength", .int 3), ("signalLength", .int 2),
    ("maType", .text "SMA")]

/-- The sides of a preset after the bars of this market. -/
def swingSides (kind : StrategyKind) : Option (List (Option Direction)) :=
  (build kind swingPrices swingParams).toOption.map fun rules =>
    (List.range swingPrices.length).map (rules.sideAfter swingPrices.length)

theorem trend_presets_take_sides_swing : Ordered Exact ∧
    swingSides .dualAverage = some [none, none, none, some .short, some .short, some .long,
      some .long] ∧
    swingSides .convergence = some [none, some .long, some .short, some .short, some .long,
      some .long, some .short] ∧
    swingSides .tripleAverage = some [none, none, none, some .short, none, some .long, none] ∧
    (∃ rules fast slow, build .dualAverage swingPrices swingParams = .ok rules ∧
      closeAverage swingPrices swingParams "fastLength" = .ok fast ∧
      closeAverage swingPrices swingParams "slowLength" = .ok slow ∧
      ∀ bar < 7, LastSide fast slow bar (rules.sideAfter 7 bar)) ∧
    (∃ rules fast slow signal, build .convergence swingPrices swingParams = .ok rules ∧
      periodOf swingParams "fastLength" 14 = .ok fast ∧
      periodOf swingParams "slowLength" 14 = .ok slow ∧
      periodOf swingParams "signalLength" 14 = .ok signal ∧
      let lines := Series.convergence fast slow signal swingPrices.close
      ∀ bar < 7, LastSide lines.line lines.signal bar (rules.sideAfter 7 bar)) ∧
    (∃ rules fast mid slow, build .tripleAverage swingPrices swingParams = .ok rules ∧
      closeAverage swingPrices swingParams "fastLength" = .ok fast ∧
      closeAverage swingPrices swingParams "midLength" = .ok mid ∧
      closeAverage swingPrices swingParams "slowLength" = .ok slow ∧
      ∀ bar < 7, ReadyAt [fast, mid, slow] bar →
        OrderSide fast mid slow bar (rules.sideAfter 7 bar)) := by
  have hdual : swingSides .dualAverage = some [none, none, none, some .short, some .short,
      some .long, some .long] := by decide +kernel
  have hlines : swingSides .convergence = some [none, some .long, some .short, some .short,
      some .long, some .long, some .short] := by decide +kernel
  have htriple : swingSides .tripleAverage =
      some [none, none, none, some .short, none, some .long, none] := by decide +kernel
  have hbuilt {kind : StrategyKind} {sides : List (Option Direction)}
      (hsides : swingSides kind = some sides) :
      ∃ rules, build kind swingPrices swingParams = .ok rules := by
    obtain ⟨rules, hrules, _⟩ := Option.map_eq_some_iff.1 hsides
    exact ⟨rules, Outcome.toOption_eq_some.1 hrules⟩
  refine ⟨Exact.ordered, hdual, hlines, htriple, ?_, ?_, ?_⟩
  · obtain ⟨rules, hrules⟩ := hbuilt hdual
    obtain ⟨fast, slow, hall⟩ :=
      (trend_presets_take_sides Exact.ordered swingPrices swingParams rules).1 hrules
    exact ⟨rules, fast, slow, hrules, hall⟩
  · obtain ⟨rules, hrules⟩ := hbuilt hlines
    obtain ⟨fast, slow, signal, hall⟩ :=
      (trend_presets_take_sides Exact.ordered swingPrices swingParams rules).2.1 hrules
    exact ⟨rules, fast, slow, signal, hrules, hall⟩
  · obtain ⟨rules, hrules⟩ := hbuilt htriple
    obtain ⟨fast, mid, slow, hall⟩ :=
      (trend_presets_take_sides Exact.ordered swingPrices swingParams rules).2.2 hrules
    exact ⟨rules, fast, mid, slow, hrules, hall⟩

end Backtest
