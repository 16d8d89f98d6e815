import Backtest.Decimal.Double
import Backtest.Proofs.Ideal
import Backtest.Proofs.Simulation.Reason
import Backtest.Proofs.Strategy.Ready
import Backtest.Proofs.Summary.Fault
import Backtest.Proofs.Summary.Month

/-!
# The monthly rows of some trades

The rows split the trades by the months of their exits (`Partitions`): each row counts its own
trades, and together they hold each trade once.  So the rows total what the metrics are made of.
In exact arithmetic their columns are sums over their trades (`SumsUp`), whatever the order of
addition; the wins are counted as the metrics count them if no profit is undefined (`CountsWins`).

The trades of a backtest over rising timestamps end one after the other, and then the rows are the
trades in groups of neighbours (`monthly_of_backtest`).

An undefined profit is a win in its month but not in the metrics
(`undefined_profit_is_monthly_win`).
-/

namespace Backtest.Summary

open Arith Calendar Backtest.Ideal

/-! ## Rows and trades -/

section Rows

variable {α : Type}

/-- The rows of some trades are in order, and each is about the trades that are closed in its
month. -/
structure Partitions (trades : List (Trade α)) (rows : List (MonthlyRow α)) : Prop where
  rising : rows.Pairwise fun first second =>
    monthKey (first.year, first.month) < monthKey (second.year, second.month)
  nonempty : ∀ row ∈ rows, ownTrades trades row ≠ []
  trades_eq : ∀ row ∈ rows, row.trades = (ownTrades trades row).length
  rearranged : (rows.flatMap (ownTrades trades)).Perm trades
  total : (rows.map (·.trades)).sum = trades.length
  consecutive : (trades.Pairwise fun first second => first.exitTimestamp ≤ second.exitTimestamp) →
    rows.flatMap (ownTrades trades) = trades

variable [Arith α]

/-- A trade with a profit. -/
def isWin (trade : Trade α) : Bool := less zero trade.percent

/-- The wins of the rows are their trades with a profit, and make up the win rate. -/
structure CountsWins (trades : List (Trade α)) (rows : List (MonthlyRow α)) : Prop where
  wins_eq : ∀ row ∈ rows, row.wins = (ownTrades trades row).countP isWin
  total : (rows.map (·.wins)).sum = trades.countP isWin
  winRate_eq : ∀ equity timestamps summary, trades ≠ [] →
    metrics trades equity timestamps = .ok summary →
      summary.trades = (rows.map (·.trades)).sum ∧
      summary.winRate = Arith.roundTo 2
        (ofNat (rows.map (·.wins)).sum / ofNat (rows.map (·.trades)).sum * ofNat 100)

/-- The metrics of some trades are made of their number, their wins and two sums. -/
theorem metrics_eq_ok {trades : List (Trade α)} {equity : Series α} {timestamps : List ℤ}
    {summary : Metrics α} (htrades : trades ≠ [])
    (hsummary : metrics trades equity timestamps = .ok summary) :
    summary.trades = trades.length ∧
      summary.winRate = Arith.roundTo 2
        (ofNat (trades.countP isWin) / ofNat trades.length * ofNat 100) ∧
      summary.dollars = Arith.roundTo 2 (leftSum (trades.map (·.dollars))) ∧
      summary.points = Arith.roundTo 2 (leftSum (trades.map (·.points))) := by
  have hwins : ((trades.map (·.percent)).filter fun profit => less zero profit).length =
      trades.countP isWin := by
    rw [← List.countP_eq_length_filter, List.countP_map]
    rfl
  rw [metrics, List.isEmpty_eq_false_iff.2 htrades, if_neg Bool.false_ne_true] at hsummary
  obtain ⟨last, _, hsummary⟩ := Outcome.bind_eq_ok.1 hsummary
  obtain ⟨final, _, hsummary⟩ := Outcome.bind_eq_ok.1 hsummary
  obtain ⟨initial, _, hsummary⟩ := Outcome.bind_eq_ok.1 hsummary
  obtain ⟨span, _, hsummary⟩ := Outcome.bind_eq_ok.1 hsummary
  injection hsummary with hsummary
  subst hsummary
  exact ⟨rfl, by dsimp only; rw [hwins], rfl, rfl⟩

variable {trades : List (Trade α)}

theorem monthly_eq_ok (hdated : ∀ trade ∈ trades, Dated trade.exitTimestamp) :
    monthly trades = .ok ((monthsOf trades).map (monthlyRow trades)) :=
  if_pos (List.all_eq_true.2 fun trade htrade => isDated_iff.2 (hdated trade htrade))

theorem consecutive_rows
    (hexits : trades.Pairwise fun first second => first.exitTimestamp ≤ second.exitTimestamp) :
    ((monthsOf trades).map (monthlyRow trades)).flatMap (ownTrades trades) = trades := by
  rw [flatMap_ownTrades]
  exact groups_eq monthOfExit (pairwise_monthsOf trades) (pairwise_monthOfExit hexits)
    fun trade htrade => mem_monthsOf.2 ⟨trade, htrade, rfl⟩

/-- A row for each month partitions the trades. -/
theorem partitions_rows (trades : List (Trade α)) :
    Partitions trades ((monthsOf trades).map (monthlyRow trades)) := by
  have hrising := pairwise_monthsOf trades
  have hperm : (((monthsOf trades).map (monthlyRow trades)).flatMap (ownTrades trades)).Perm
      trades := by
    rw [flatMap_ownTrades]
    exact groups_perm monthOfExit (hrising.imp fun hlt heq => hlt.ne (congrArg monthKey heq))
      fun trade htrade => mem_monthsOf.2 ⟨trade, htrade, rfl⟩
  have htrades (row : MonthlyRow α) (hrow : row ∈ (monthsOf trades).map (monthlyRow trades)) :
      row.trades = (ownTrades trades row).length := by
    obtain ⟨month, _, rfl⟩ := List.mem_map.1 hrow
    rw [ownTrades_monthlyRow]
    rfl
  refine ⟨List.pairwise_map.2 hrising, fun row hrow => ?_, htrades, hperm, ?_, consecutive_rows⟩
  · obtain ⟨month, hmonth, rfl⟩ := List.mem_map.1 hrow
    obtain ⟨trade, htrade, rfl⟩ := mem_monthsOf.1 hmonth
    rw [ownTrades_monthlyRow]
    exact List.ne_nil_of_mem (List.mem_filter.2 ⟨htrade, decide_eq_true rfl⟩)
  · rw [List.map_congr_left htrades, ← List.length_flatMap, hperm.length_eq]

/-- Where no profit is undefined, the rows count the wins. -/
theorem countsWins_rows (hdefined : ∀ trade ∈ trades, isNaN trade.percent = false) :
    CountsWins trades ((monthsOf trades).map (monthlyRow trades)) := by
  have hpartitions := partitions_rows trades
  have hwins (row : MonthlyRow α) (hrow : row ∈ (monthsOf trades).map (monthlyRow trades)) :
      row.wins = (ownTrades trades row).countP isWin := by
    obtain ⟨month, _, rfl⟩ := List.mem_map.1 hrow
    rw [ownTrades_monthlyRow, List.countP_eq_length_filter]
    refine congrArg List.length (List.filter_congr fun trade htrade => ?_)
    rw [isMonthlyWin, hdefined trade (List.mem_of_mem_filter htrade), Bool.or_false, isWin]
  have htotal : (((monthsOf trades).map (monthlyRow trades)).map (·.wins)).sum =
      trades.countP isWin := by
    rw [List.map_congr_left hwins, ← hpartitions.rearranged.countP_eq, List.countP_flatMap]
    rfl
  refine ⟨hwins, htotal, fun equity timestamps summary htrades hsummary => ?_⟩
  obtain ⟨hcount, hrate, _⟩ := metrics_eq_ok htrades hsummary
  rw [hpartitions.total, htotal]
  exact ⟨hcount, hrate⟩

end Rows

/-! ## Sums -/

section Sums

/-- The number that an ideal number is, or zero where it is undefined. -/
def number (x : Ideal) : ℝ := x.real?.getD 0

theorem eq_finite {x : Ideal} (hx : isNaN x = false) : x = finite (number x) := by
  cases x with
  | undefined => exact nomatch hx
  | finite value => rfl

theorem leftSum_eq {xs : List Ideal} (hxs : ∀ x ∈ xs, isNaN x = false) :
    leftSum xs = finite (xs.map number).sum := by
  have hfold (total : ℝ) : xs.foldl (· + ·) (finite total) =
      finite (total + (xs.map number).sum) := by
    induction xs generalizing total with
    | nil => exact congrArg finite (add_zero total).symm
    | cons x rest ih =>
        rw [List.foldl_cons, eq_finite (hxs x List.mem_cons_self), add_finite,
          ih fun y hy => hxs y (List.mem_cons_of_mem x hy), List.map_cons, List.sum_cons, add_assoc]
        rfl
  rw [leftSum, zero_eq_finite, hfold, zero_add]

/-- Nothing is rounded, so there is never an excess to take back. -/
theorem add_noExcess (total : ℝ) {x : Ideal} (hx : isNaN x = false) :
    Compensated.add ⟨finite total, finite 0⟩ x = ⟨finite (total + number x), finite 0⟩ := by
  have hexcess : total + number x - total - number x = 0 := by ring
  rw [eq_finite hx]
  simp only [Compensated.add, sub_finite, add_finite, sub_zero, hexcess, ite_self]
  rfl

theorem foldl_add_noExcess (total : ℝ) {xs : List Ideal} (hxs : ∀ x ∈ xs, isNaN x = false) :
    xs.foldl Compensated.add ⟨finite total, finite 0⟩ =
      ⟨finite (total + (xs.map number).sum), finite 0⟩ := by
  induction xs generalizing total with
  | nil => rw [List.map_nil, List.sum_nil, add_zero, List.foldl_nil]
  | cons x rest ih =>
      rw [List.foldl_cons, add_noExcess total (hxs x List.mem_cons_self),
        ih _ fun y hy => hxs y (List.mem_cons_of_mem x hy), List.map_cons, List.sum_cons, add_assoc]

theorem compensatedSum_eq {xs : List Ideal} (hxs : ∀ x ∈ xs, isNaN x = false) :
    compensatedSum xs = finite (xs.map number).sum := by
  fun_cases compensatedSum xs with
  | case1 x =>
      rw [List.map_singleton, List.sum_singleton]
      exact eq_finite (hxs x List.mem_cons_self)
  | case2 => rw [zero_eq_finite, foldl_add_noExcess 0 hxs, zero_add]

/-- A column of the rows is a sum over their trades, and totals the sum over all trades. -/
structure SumsColumn (trades : List (Trade Ideal)) (rows : List (MonthlyRow Ideal))
    (profit : Trade Ideal → Ideal) (column : MonthlyRow Ideal → Ideal) : Prop where
  column_eq : ∀ row ∈ rows,
    column row = finite ((ownTrades trades row).map fun trade => number (profit trade)).sum
  total : (rows.map fun row => number (column row)).sum =
    (trades.map fun trade => number (profit trade)).sum

/-- The columns of the rows are sums, and two of them total what the metrics show. -/
structure SumsUp (trades : List (Trade Ideal)) (rows : List (MonthlyRow Ideal)) : Prop where
  percent : SumsColumn trades rows (·.percent) (·.percent)
  dollars : SumsColumn trades rows (·.dollars) (·.dollars)
  points : SumsColumn trades rows (·.points) (·.points)
  metrics_eq : ∀ equity timestamps summary, trades ≠ [] →
    metrics trades equity timestamps = .ok summary →
      summary.dollars = Arith.roundTo 2 (finite (rows.map fun row => number row.dollars).sum) ∧
      summary.points = Arith.roundTo 2 (finite (rows.map fun row => number row.points).sum)

/-- A trade whose profits are numbers. -/
structure Profits (trade : Trade Ideal) : Prop where
  percent : isNaN trade.percent = false
  dollars : isNaN trade.dollars = false
  points : isNaN trade.points = false

variable {trades : List (Trade Ideal)}

theorem sumsColumn_rows {profit : Trade Ideal → Ideal} {column : MonthlyRow Ideal → Ideal}
    (hcolumn : ∀ month, column (monthlyRow trades month) = compensatedSum
      ((trades.filter fun trade => monthOfExit trade = month).map profit))
    (hdefined : ∀ trade ∈ trades, isNaN (profit trade) = false) :
    SumsColumn trades ((monthsOf trades).map (monthlyRow trades)) profit column := by
  have hsum (row : MonthlyRow Ideal) (hrow : row ∈ (monthsOf trades).map (monthlyRow trades)) :
      column row =
        finite ((ownTrades trades row).map fun trade => number (profit trade)).sum := by
    obtain ⟨month, _, rfl⟩ := List.mem_map.1 hrow
    rw [ownTrades_monthlyRow, hcolumn, compensatedSum_eq, List.map_map]
    · rfl
    · exact List.forall_mem_map.2 fun trade htrade =>
        hdefined trade (List.mem_of_mem_filter htrade)
  refine ⟨hsum, ?_⟩
  have hperm := (partitions_rows trades).rearranged.map fun trade => number (profit trade)
  generalize (monthsOf trades).map (monthlyRow trades) = rows at hsum hperm ⊢
  rw [← hperm.sum_eq, List.map_flatMap, List.flatMap_def, List.sum_flatten, List.map_map]
  exact congrArg List.sum (List.map_congr_left fun row hrow => congrArg number (hsum row hrow))

theorem sumsUp_rows (hprofits : ∀ trade ∈ trades, Profits trade) :
    SumsUp trades ((monthsOf trades).map (monthlyRow trades)) := by
  have hdollars : SumsColumn trades _ (·.dollars) (·.dollars) :=
    sumsColumn_rows (fun _ => rfl) fun trade htrade => (hprofits trade htrade).dollars
  have hpoints : SumsColumn trades _ (·.points) (·.points) :=
    sumsColumn_rows (fun _ => rfl) fun trade htrade => (hprofits trade htrade).points
  refine ⟨sumsColumn_rows (fun _ => rfl) fun trade htrade => (hprofits trade htrade).percent,
    hdollars, hpoints, fun equity timestamps summary htrades hsummary => ?_⟩
  obtain ⟨_, _, hdollars_eq, hpoints_eq⟩ := metrics_eq_ok htrades hsummary
  rw [leftSum_eq (List.forall_mem_map.2 fun trade htrade => (hprofits trade htrade).dollars),
    List.map_map] at hdollars_eq
  rw [leftSum_eq (List.forall_mem_map.2 fun trade htrade => (hprofits trade htrade).points),
    List.map_map] at hpoints_eq
  rw [hdollars.total, hpoints.total]
  exact ⟨hdollars_eq, hpoints_eq⟩

end Sums

/-! ## Backtests -/

section Backtests

open Simulation

variable {α : Type} [Arith α] {prices : Prices α} {asset : Option (Asset α)}

omit [Arith α] in
theorem getElem?_of_entryAt {β : Type} {column : List β} {bar : ℕ} {x : β}
    (hx : entryAt column bar = .ok x) : column[bar]? = some x := by
  have hnonneg : ¬ (bar : ℤ) < 0 := by omega
  rw [entryAt, if_neg hnonneg, if_neg hnonneg, Int.toNat_natCast] at hx
  split at hx
  · next hbar => exact hbar.trans (congrArg some (Except.ok.inj hx))
  · cases hx

/-- Timestamps that rise are in the order of their bars. -/
theorem timestamp_le {timestamps : List ℤ} (hrising : timestamps.Pairwise (· < ·))
    {first second : ℕ} {earlier later : ℤ} (hle : first ≤ second)
    (hearlier : timestamps[first]? = some earlier) (hlater : timestamps[second]? = some later) :
    earlier ≤ later := by
  obtain ⟨hfirst, rfl⟩ := List.getElem?_eq_some_iff.1 hearlier
  obtain ⟨hsecond, rfl⟩ := List.getElem?_eq_some_iff.1 hlater
  rcases hle.eq_or_lt with rfl | hlt
  · exact le_rfl
  · exact (List.pairwise_iff_getElem.1 hrising first second hfirst hsecond hlt).le

/-- The trades of legs that end one after the other do so too. -/
theorem exits_rise (hrising : prices.timestamp.Pairwise (· < ·)) {legs : List Leg}
    (hlegs : legs.Pairwise fun first second => first.exit ≤ second.exit) {trades : List (Trade α)}
    (htrades : tradesOf prices asset legs = .ok trades) :
    trades.Pairwise fun first second => first.exitTimestamp ≤ second.exitTimestamp := by
  induction legs generalizing trades with
  | nil =>
      injection htrades with htrades
      exact htrades ▸ .nil
  | cons leg rest ih =>
      obtain ⟨hfirst, hlegs⟩ := List.pairwise_cons.1 hlegs
      obtain ⟨trade, others, htrade, hothers, rfl⟩ := tradesOf_cons_eq_ok.1 htrades
      refine List.pairwise_cons.2 ⟨fun other hother => ?_, ih hlegs hothers⟩
      obtain ⟨later, hlater, hother⟩ := exists_leg_of_mem hothers other hother
      exact timestamp_le hrising (hfirst later hlater)
        (getElem?_of_entryAt (settles_of_tradeOf htrade).exitTimestamp)
        (getElem?_of_entryAt (settles_of_tradeOf hother).exitTimestamp)

/-- A report of a preset or of a script over some bars. -/
def IsBacktest (bars : List (Bar α)) (report : Report α) : Prop :=
  (∃ strategy params asset, backtestPreset bars strategy params asset = .ok report) ∨
    ∃ code params asset, backtestScript bars code params asset = .ok report

theorem IsBacktest.exists_signals {bars : List (Bar α)} {report : Report α}
    (hreport : IsBacktest bars report) :
    ∃ prices signals fromFlat params asset, Prices.ofValidBars bars = .ok prices ∧
      Report.ofSignals prices signals fromFlat params asset = .ok report := by
  rcases hreport with ⟨strategy, params, asset, hrun⟩ | ⟨code, params, asset, hrun⟩
  · obtain ⟨kind, _, hrun⟩ := Outcome.bind_eq_ok.1 hrun
    obtain ⟨prices, hprices, hrun⟩ := Outcome.bind_eq_ok.1 hrun
    obtain ⟨rules, _, hrun⟩ := Outcome.bind_eq_ok.1 hrun
    exact ⟨prices, _, _, _, asset, hprices, hrun⟩
  · obtain ⟨prices, hprices, hrun⟩ := Outcome.bind_eq_ok.1 hrun
    obtain ⟨run, _, hrun⟩ := Outcome.bind_eq_ok.1 hrun
    exact ⟨prices, _, _, _, asset, hprices, hrun⟩

/-- The monthly rows of a report are those of its trades. -/
theorem monthly_of_ofSignals {signals : List (SignalKind × Flags)} {fromFlat : Bool}
    {params : Params α} {report : Report α}
    (hreport : Report.ofSignals prices signals fromFlat params asset = .ok report) :
    monthly report.trades = .ok report.monthly :=
  (Report.ofSignals_eq_ok.1 hreport).2.2.1

/-- A backtest over rising timestamps closes its trades one after the other, and its monthly rows
are these trades in groups of neighbours. -/
theorem monthly_of_backtest {bars : List (Bar α)} {report : Report α}
    (hreport : IsBacktest bars report)
    (hrising : bars.Pairwise fun first second => first.timestamp < second.timestamp) :
    monthly report.trades = .ok report.monthly ∧
      (report.trades.Pairwise fun first second => first.exitTimestamp ≤ second.exitTimestamp) ∧
      report.monthly.flatMap (ownTrades report.trades) = report.trades := by
  obtain ⟨prices, signals, fromFlat, params, asset, hprices, hreport⟩ := hreport.exists_signals
  have hmonthly := monthly_of_ofSignals hreport
  have htimestamps : prices.timestamp.Pairwise (· < ·) := by
    rw [(Prices.columns_of_ofValidBars hprices).2]
    exact List.pairwise_map.2 hrising
  have hexits := exits_rise htimestamps (legs_exits_rise prices.length signals fromFlat)
    (Report.trades_of_ofSignals hreport).1
  refine ⟨hmonthly, hexits, ?_⟩
  rw [monthly] at hmonthly
  split at hmonthly
  · injection hmonthly with hmonthly
    exact hmonthly ▸ consecutive_rows hexits
  · cases hmonthly

end Backtests

/-! ## The partition -/

/-- Trades that are closed within the calendar have rows that partition them.  If their profits are
defined, the rows count the wins of the metrics, and in exact arithmetic they sum up the profits.
The rows of a backtest over rising timestamps are its trades in groups of neighbours. -/
theorem monthly_rows_partition {α : Type} [Arith α] (trades : List (Trade α))
    (exact : List (Trade Ideal)) (bars : List (Bar α)) :
    ((∀ trade ∈ trades, Dated trade.exitTimestamp) →
      ∃ rows, monthly trades = .ok rows ∧ Partitions trades rows ∧
        ((∀ trade ∈ trades, isNaN trade.percent = false) → CountsWins trades rows)) ∧
    ((∀ trade ∈ exact, Dated trade.exitTimestamp) → (∀ trade ∈ exact, Profits trade) →
      ∃ rows, monthly exact = .ok rows ∧ SumsUp exact rows) ∧
    ((bars.Pairwise fun first second => first.timestamp < second.timestamp) →
      ∀ report, IsBacktest bars report →
        monthly report.trades = .ok report.monthly ∧
          (report.trades.Pairwise fun first second =>
            first.exitTimestamp ≤ second.exitTimestamp) ∧
          report.monthly.flatMap (ownTrades report.trades) = report.trades) := by
  refine ⟨?_, ?_, ?_⟩
  · intro hdated
    exact ⟨_, monthly_eq_ok hdated, partitions_rows trades, countsWins_rows⟩
  · intro hdated hprofits
    exact ⟨_, monthly_eq_ok hdated, sumsUp_rows hprofits⟩
  · intro hrising report hreport
    exact monthly_of_backtest hreport hrising

/-- A trade with a profit in percent that is closed at a moment. -/
def tradeAt (exitTimestamp percent : ℤ) : Trade Ideal :=
  ⟨1, 2, 0, exitTimestamp, finite 1, finite 1, .long, finite percent, finite 1, finite 0⟩

/-- Trades around a leap day and before the first day of the count, not in order. -/
def leapTrades : List (Trade Ideal) :=
  [tradeAt 1709251200000 2, tradeAt (-1) (-1), tradeAt 1709251199999 3, tradeAt 1709251200001 4]

/-- Bars around the first day of the count, with a rise and a fall on each side. -/
def turnBars : List (Bar Exact) :=
  [(-7200000, 1, 1), (-3600000, 1, 2), (-1, 3, 2), (0, 2, 3), (3600000, 4, 3)].map
    fun (timestamp, opening, close) =>
      ⟨timestamp, .finite opening, .finite 4, .finite 1, .finite close, .finite 0⟩

/-- A script that is long from a rising bar to a falling one. -/
def turnScript : String :=
  "if close > open\n    strategy.entry(\"Long\", strategy.long)\n" ++
    "if close < open\n    strategy.close(\"Long\")"

/-- The leap day ends February, the moment before the count is in December, and the trades of the
script are closed in two months. -/
theorem monthly_rows_partition_leap :
    (∃ rows, monthly leapTrades = .ok rows ∧ Partitions leapTrades rows ∧
      CountsWins leapTrades rows ∧ SumsUp leapTrades rows ∧
      rows.map (fun row => ((row.year, row.month), row.trades)) =
        [((1969, 12), 1), ((2024, 2), 1), ((2024, 3), 2)]) ∧
    ∃ report, backtestScript turnBars turnScript [] none = .ok report ∧
      report.monthly.map (fun row => ((row.year, row.month), row.trades)) =
        [((1969, 12), 1), ((1970, 1), 1)] ∧
      report.monthly.flatMap (ownTrades report.trades) = report.trades := by
  have hdated : ∀ trade ∈ leapTrades, Dated trade.exitTimestamp := by
    have htimestamps : ∀ timestamp ∈ leapTrades.map (·.exitTimestamp), Dated timestamp := by
      unfold Dated
      decide
    exact List.forall_mem_map.1 htimestamps
  have hprofits : ∀ trade ∈ leapTrades, Profits trade := by
    simp only [leapTrades, List.forall_mem_cons]
    exact ⟨⟨rfl, rfl, rfl⟩, ⟨rfl, rfl, rfl⟩, ⟨rfl, rfl, rfl⟩, ⟨rfl, rfl, rfl⟩, nofun⟩
  constructor
  · obtain ⟨hpartition, hsums, _⟩ := monthly_rows_partition leapTrades leapTrades []
    obtain ⟨rows, hrows, hparts, hwins⟩ := hpartition hdated
    obtain ⟨others, hothers, hsumsUp⟩ := hsums hdated hprofits
    obtain rfl : rows = others := Except.ok.inj (hrows.symm.trans hothers)
    refine ⟨rows, hrows, hparts, hwins fun trade htrade => (hprofits trade htrade).percent, hsumsUp,
      ?_⟩
    obtain rfl := Except.ok.inj ((monthly_eq_ok hdated).symm.trans hrows)
    decide +kernel
  · have hmonths : (backtestScript turnBars turnScript [] none).toOption.map (fun report =>
        report.monthly.map fun row => ((row.year, row.month), row.trades)) =
          some [((1969, 12), 1), ((1970, 1), 1)] := by
      decide +kernel
    obtain ⟨report, hreport, hrows⟩ := Option.map_eq_some_iff.1 hmonths
    have hreport := Outcome.toOption_eq_some.1 hreport
    have hrising : turnBars.Pairwise fun first second => first.timestamp < second.timestamp := by
      decide
    obtain ⟨_, _, hbacktest⟩ := monthly_rows_partition [] [] turnBars
    exact ⟨report, hreport, hrows, (hbacktest hrising report (.inr ⟨_, _, _, hreport⟩)).2.2⟩

/-- A trade whose profit in percent is undefined. -/
def undefinedTrade : Trade Float := ⟨1, 2, 0, 0, 1, 1, .long, nan, 0, 0⟩

/-- An undefined profit counts as a win of its month, and is none for the win rate. -/
theorem undefined_profit_is_monthly_win :
    Dated undefinedTrade.exitTimestamp ∧
      ∃ row, monthly [undefinedTrade] = .ok [row] ∧ row.wins = 1 ∧
        (ownTrades [undefinedTrade] row).countP isWin = 0 ∧
        [undefinedTrade].countP isWin = 0 := by
  have hdated : Dated undefinedTrade.exitTimestamp := by
    unfold Dated
    decide
  have hrow := monthly_eq_ok (List.forall_mem_singleton.2 hdated)
  exact ⟨hdated, _, hrow, by decide +kernel, by decide +kernel, by decide +kernel⟩

end Backtest.Summary
