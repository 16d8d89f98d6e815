import Backtest.Proofs.Ideal
import Backtest.Proofs.Simulation.Reason
import Backtest.Proofs.Summary.Fault
import Mathlib.Algebra.Order.BigOperators.Group.List

/-!
# Equity as compound growth

The equity curve groups the trades by the bar of their exit and multiplies the groups up.  On ideal
numbers this is the account that settles the trades one after the other, each at its exit
(`equityCurve_eq_ledger`): at each bar the equity is 100, multiplied by the gains of the trades that
have ended so far (`equityCurve_eq`).

A long trade multiplies the equity by the ratio of its prices, so without short trades and over
positive prices the equity is positive.
-/

namespace Backtest.Simulation

open Arith

/-! ## Gains -/

/-- The profit of a trade in percent. -/
def profit (trade : Trade Ideal) : ℝ := trade.percent.real?.getD 0

/-- What a trade multiplies the equity by. -/
noncomputable def gain (trade : Trade Ideal) : ℝ := 1 + profit trade / 100

/-- The price at the exit of a trade over the price at its entry. -/
noncomputable def priceRatio (trade : Trade Ideal) : ℝ :=
  trade.exitPrice.real?.getD 0 / trade.entryPrice.real?.getD 0

/-- What becomes of 100 if each trade multiplies it by a factor. -/
noncomputable def compound (factor : Trade Ideal → ℝ) (trades : List (Trade Ideal)) : ℝ :=
  100 * (trades.map factor).prod

/-- The trades that have ended when a bar is over. -/
def endedBy (bar : ℕ) (trades : List (Trade Ideal)) : List (Trade Ideal) :=
  trades.filter fun trade => trade.exit ≤ (bar : ℤ)

/-! ## Trades one by one -/

section Trades

variable {α : Type} [Arith α] {prices : Prices α} {asset : Option (Asset α)}

/-- A trade has prices of its table, and its profit is that of its direction between them. -/
theorem tradeOf_prices {leg : Leg} {trade : Trade α}
    (htrade : tradeOf prices asset leg = .ok trade) :
    trade.entryPrice ∈ prices.close ∧ trade.exitPrice ∈ prices.close ∧
      trade.percent = pointsOf trade.direction trade.entryPrice trade.exitPrice /
        trade.entryPrice * ofNat 100 := by
  have hsettles := settles_of_tradeOf htrade
  refine ⟨mem_of_entryAt hsettles.entryPrice, mem_of_entryAt hsettles.exitPrice, ?_⟩
  rw [hsettles.percent_eq, hsettles.points_eq]

end Trades

/-! ## Real prices -/

section Real

variable {prices : Prices Ideal} {asset : Option (Asset Ideal)}

/-- A trade between defined prices, the first of which is not zero. -/
structure Priced (trade : Trade Ideal) (entryPrice exitPrice : ℝ) : Prop where
  entry_eq : trade.entryPrice = .finite entryPrice
  exit_eq : trade.exitPrice = .finite exitPrice
  entry_ne_zero : entryPrice ≠ 0
  percent_eq : trade.percent =
    pointsOf trade.direction (.finite entryPrice) (.finite exitPrice) / .finite entryPrice *
      ofNat 100

/-- A condition on real numbers that holds of all closes of a table. -/
def ClosesSatisfy (P : ℝ → Prop) (prices : Prices Ideal) : Prop :=
  ∀ x ∈ prices.close, ∃ price, P price ∧ x = .finite price

theorem same_zero_of_closes (hcloses : ClosesSatisfy (· ≠ 0) prices) :
    ∀ x ∈ prices.close, same x zero = false := by
  intro x hx
  obtain ⟨price, hprice, rfl⟩ := hcloses x hx
  exact decide_eq_false (by simpa using hprice)

theorem exists_priced {P : ℝ → Prop} {leg : Leg} {trade : Trade Ideal}
    (hcloses : ClosesSatisfy P prices) (hnonzero : ∀ price, P price → price ≠ 0)
    (htrade : tradeOf prices asset leg = .ok trade) :
    ∃ entryPrice exitPrice, P entryPrice ∧ P exitPrice ∧ Priced trade entryPrice exitPrice := by
  obtain ⟨hentry, hexit, hpercent⟩ := tradeOf_prices htrade
  obtain ⟨entryPrice, hentryPrice, hentry⟩ := hcloses _ hentry
  obtain ⟨exitPrice, hexitPrice, hexit⟩ := hcloses _ hexit
  rw [hentry, hexit] at hpercent
  exact ⟨entryPrice, exitPrice, hentryPrice, hexitPrice, hentry, hexit,
    hnonzero entryPrice hentryPrice, hpercent⟩

namespace Priced

variable {trade : Trade Ideal} {entryPrice exitPrice : ℝ}

theorem percent_eq_profit (hpriced : Priced trade entryPrice exitPrice) :
    trade.percent = .finite (profit trade) := by
  rw [profit, hpriced.percent_eq]
  cases trade.direction <;> simp [pointsOf, hpriced.entry_ne_zero, Ideal.real?]

theorem priceRatio_eq (hpriced : Priced trade entryPrice exitPrice) :
    priceRatio trade = exitPrice / entryPrice := by
  rw [priceRatio, hpriced.entry_eq, hpriced.exit_eq]
  rfl

/-- A long trade multiplies the equity by the ratio of its prices. -/
theorem gain_eq_priceRatio (hpriced : Priced trade entryPrice exitPrice)
    (hlong : trade.direction = .long) : gain trade = priceRatio trade := by
  have hentry := hpriced.entry_ne_zero
  have hprofit : profit trade = (exitPrice - entryPrice) / entryPrice * 100 := by
    rw [profit, hpriced.percent_eq, hlong]
    simp [pointsOf, hentry, Ideal.real?]
  rw [gain, hprofit, hpriced.priceRatio_eq]
  field_simp
  ring

end Priced

end Real

/-! ## Groups of trades -/

section Groups

variable {trades : List (Trade Ideal)}

/-- Every trade has a defined profit. -/
def Defined (trades : List (Trade Ideal)) : Prop :=
  ∀ trade ∈ trades, trade.percent = .finite (profit trade)

/-- The trades that end at a bar multiply the equity by the product of their gains. -/
theorem factorAt_eq (hdefined : Defined trades) (bar : ℕ) :
    factorAt trades bar =
      .finite ((trades.filter fun trade => trade.exit = (bar : ℤ)).map gain).prod := by
  have hfold (total : ℝ) : trades.foldl (fun factor trade =>
      if trade.exit = (bar : ℤ) then factor * (one + trade.percent / ofNat 100) else factor)
        (.finite total) =
      .finite (total * ((trades.filter fun trade => trade.exit = (bar : ℤ)).map gain).prod) := by
    induction trades generalizing total with
    | nil => simp
    | cons trade rest ih =>
        obtain ⟨hpercent, hrest⟩ := List.forall_mem_cons.1 hdefined
        rw [List.foldl_cons, List.filter_cons]
        by_cases hexit : trade.exit = (bar : ℤ)
        · have hgain : (.finite total : Ideal) * (one + trade.percent / ofNat 100) =
              .finite (total * gain trade) := by
            rw [hpercent, gain]
            simp [one]
          rw [if_pos hexit, hgain, ih hrest, if_pos (decide_eq_true hexit), List.map_cons,
            List.prod_cons, mul_assoc]
        · rw [if_neg hexit, ih hrest, if_neg (by simpa using hexit)]
  have hone := hfold 1
  rw [one_mul] at hone
  rw [← hone, factorAt]
  simp [one]

/-- The trades that have ended by a bar ended before it or at it. -/
theorem prod_endedBy (factor : Trade Ideal → ℝ) (bar : ℕ) :
    ((endedBy bar trades).map factor).prod =
      ((trades.filter fun trade => trade.exit < (bar : ℤ)).map factor).prod *
        ((trades.filter fun trade => trade.exit = (bar : ℤ)).map factor).prod := by
  rw [← List.prod_map_filter_mul_prod_map_filter_not (fun trade => trade.exit < (bar : ℤ)) factor
    (endedBy bar trades), endedBy, List.filter_filter, List.filter_filter]
  congr 3
  · refine List.filter_congr fun trade _ => ?_
    grind
  · refine List.filter_congr fun trade _ => ?_
    grind

theorem endedBy_eq (bar : ℕ) :
    endedBy bar trades = trades.filter fun trade => trade.exit < ((bar + 1 : ℕ) : ℤ) := by
  refine List.filter_congr fun trade _ => decide_eq_decide.2 ?_
  omega

end Groups

/-! ## The curve -/

section Curve

variable {trades : List (Trade Ideal)}

/-- From a bar on, the running product goes on from the trades that ended before. -/
theorem scan_factors (hdefined : Defined trades) (bar count : ℕ) :
    Series.scan (fun total factor => (total * factor, total * factor))
        (.finite ((trades.filter fun trade => trade.exit < (bar : ℤ)).map gain).prod)
        ((List.range' bar count).map (factorAt trades)) =
      (List.range' bar count).map fun bar => .finite ((endedBy bar trades).map gain).prod := by
  induction count generalizing bar with
  | zero => rfl
  | succ count ih =>
      have hnext : (.finite ((trades.filter fun trade => trade.exit < (bar : ℤ)).map gain).prod :
          Ideal) * factorAt trades bar = .finite ((endedBy bar trades).map gain).prod := by
        rw [factorAt_eq hdefined, Ideal.mul_finite, prod_endedBy]
      have hrest := ih (bar + 1)
      rw [← endedBy_eq] at hrest
      rw [List.range'_succ, List.map_cons, List.map_cons, Series.scan_cons, hnext, hrest]

/-- At each bar the equity is 100, multiplied by the gains of the trades that have ended by then. -/
theorem equityCurve_eq (hdefined : Defined trades) (hexits : ∀ trade ∈ trades, 0 ≤ trade.exit)
    (bars : ℕ) : equityCurve bars trades =
      (List.range bars).map fun bar => .finite (compound gain (endedBy bar trades)) := by
  have hnone : (trades.filter fun trade => trade.exit < ((0 : ℕ) : ℤ)) = [] := by
    refine List.filter_eq_nil_iff.2 fun trade htrade => ?_
    simpa using hexits trade htrade
  have hscan := scan_factors hdefined 0 bars
  rw [hnone, ← List.range_eq_range'] at hscan
  have hone : (.finite (([] : List (Trade Ideal)).map gain).prod : Ideal) = one := by
    simp [one]
  rw [hone] at hscan
  rw [equityCurve, hscan, List.map_map]
  rfl

/-! ## The account -/

/-- Settles the first of the pending trades as long as they end at a bar. -/
noncomputable def settle (bar : ℕ) : ℝ → List (Trade Ideal) → ℝ × List (Trade Ideal)
  | total, [] => (total, [])
  | total, trade :: rest =>
      if trade.exit = (bar : ℤ) then settle bar (total * gain trade) rest
      else (total, trade :: rest)

/-- The account over a count of bars from a bar on: what it holds after each of them. -/
noncomputable def ledger (total : ℝ) (pending : List (Trade Ideal)) (bar : ℕ) : ℕ → List ℝ
  | 0 => []
  | count + 1 =>
      let settled := settle bar total pending
      settled.1 :: ledger settled.1 settled.2 (bar + 1) count

/-- Trades in the order of their exits, none of which ends before a bar. -/
structure Pending (bar : ℕ) (trades : List (Trade Ideal)) : Prop where
  sorted : trades.Pairwise fun first second => first.exit ≤ second.exit
  from_bar : ∀ trade ∈ trades, (bar : ℤ) ≤ trade.exit

/-- Settling a bar takes the trades that end at it. -/
theorem settle_eq {bar : ℕ} (hpending : Pending bar trades) (total : ℝ) :
    settle bar total trades =
      (total * ((trades.filter fun trade => trade.exit = (bar : ℤ)).map gain).prod,
        trades.filter fun trade => ((bar + 1 : ℕ) : ℤ) ≤ trade.exit) := by
  induction trades generalizing total with
  | nil => simp [settle]
  | cons trade rest ih =>
      obtain ⟨hfirst, hsorted⟩ := List.pairwise_cons.1 hpending.sorted
      obtain ⟨hbar, hrest⟩ := List.forall_mem_cons.1 hpending.from_bar
      rw [settle]
      by_cases hexit : trade.exit = (bar : ℤ)
      · rw [if_pos hexit, ih ⟨hsorted, hrest⟩, List.filter_cons_of_pos (by simpa using hexit),
          List.filter_cons_of_neg (by simp [hexit]), List.map_cons, List.prod_cons, mul_assoc]
      · -- The first trade ends later, and so do all trades behind it.
        have hlater : ∀ other ∈ trade :: rest, ((bar + 1 : ℕ) : ℤ) ≤ other.exit := by
          refine List.forall_mem_cons.2 ⟨by omega, fun other hother => ?_⟩
          have := hfirst other hother
          omega
        have hnone : (trade :: rest).filter (fun trade => trade.exit = (bar : ℤ)) = [] := by
          refine List.filter_eq_nil_iff.2 fun other hother => ?_
          have := hlater other hother
          simp
          omega
        have hall := List.filter_eq_self.2 fun other hother => decide_eq_true (hlater other hother)
        rw [if_neg hexit, hnone, hall, List.map_nil, List.prod_nil, mul_one]

/-- What is left after a bar is pending at the next one. -/
theorem Pending.next {bar : ℕ} (hpending : Pending bar trades) :
    Pending (bar + 1) (trades.filter fun trade => ((bar + 1 : ℕ) : ℤ) ≤ trade.exit) :=
  ⟨hpending.sorted.filter _, fun _ htrade => of_decide_eq_true (List.mem_filter.1 htrade).2⟩

/-- Of the trades that have ended by a bar, some ended at the first bar and the others later. -/
theorem Pending.prod_endedBy {first bar : ℕ} (hpending : Pending first trades)
    (hbar : first ≤ bar) :
    ((endedBy bar trades).map gain).prod =
      ((trades.filter fun trade => trade.exit = (first : ℤ)).map gain).prod *
        ((endedBy bar (trades.filter fun trade => ((first + 1 : ℕ) : ℤ) ≤ trade.exit)).map
          gain).prod := by
  rw [← List.prod_map_filter_mul_prod_map_filter_not (fun trade => trade.exit = (first : ℤ)) gain
    (endedBy bar trades), endedBy, endedBy, List.filter_filter, List.filter_filter,
    List.filter_filter]
  congr 3
  · refine List.filter_congr fun trade _ => ?_
    grind
  · refine List.filter_congr fun trade htrade => ?_
    have hfirst := hpending.from_bar trade htrade
    grind

/-- The account holds what it began with, multiplied by the gains of the trades that have ended. -/
theorem ledger_eq {bar : ℕ} (hpending : Pending bar trades) (total : ℝ) (count : ℕ) :
    ledger total trades bar count = (List.range' bar count).map fun bar =>
      total * ((endedBy bar trades).map gain).prod := by
  induction count generalizing bar total trades with
  | zero => rfl
  | succ count ih =>
      have hfirst := hpending.prod_endedBy (Nat.le_refl bar)
      have hnone : endedBy bar (trades.filter fun trade => ((bar + 1 : ℕ) : ℤ) ≤ trade.exit) =
          [] := by
        refine List.filter_eq_nil_iff.2 fun trade htrade => ?_
        have hlater := hpending.next.from_bar trade htrade
        simp
        omega
      rw [hnone, List.map_nil, List.prod_nil, mul_one] at hfirst
      rw [ledger, settle_eq hpending, List.range'_succ, List.map_cons, hfirst, ih hpending.next]
      congr 1
      refine List.map_congr_left fun later hlater => ?_
      have hle : bar ≤ later := by
        have := (List.mem_range'_1.1 hlater).1
        omega
      rw [hpending.prod_endedBy hle, mul_assoc]

theorem equityCurve_eq_ledger (hdefined : Defined trades) (hpending : Pending 0 trades)
    (bars : ℕ) : equityCurve bars trades = (ledger 100 trades 0 bars).map Ideal.finite := by
  rw [equityCurve_eq hdefined hpending.from_bar, ledger_eq hpending, List.range_eq_range',
    List.map_map]
  rfl

end Curve

/-! ## Whole simulations -/

section Simulations

variable {prices : Prices Ideal} {asset : Option (Asset Ideal)}
variable {signals : List (SignalKind × Flags)} {fromFlat : Bool} {trades : List (Trade Ideal)}

/-- The trades of a simulation end from the second bar on and in order. -/
theorem pending_of_tradesOf
    (htrades : tradesOf prices asset (legs prices.length signals fromFlat) = .ok trades) :
    Pending 1 trades := by
  have hjustified := legs_justified prices.length signals fromFlat
  have hsorted : (legs prices.length signals fromFlat).Pairwise fun first second =>
      (first.exit : ℤ) ≤ second.exit :=
    (legs_exits_rise prices.length signals fromFlat).imp Int.ofNat_le.2
  constructor
  · have houtlines : ((legs prices.length signals fromFlat).map Leg.outline).Pairwise
        fun first second => first.2.1 ≤ second.2.1 := List.pairwise_map.2 hsorted
    rw [← tradesOf_outline htrades] at houtlines
    have hexits := List.pairwise_map.1 houtlines
    exact hexits
  · intro trade htrade
    obtain ⟨leg, hleg, htrade⟩ := exists_leg_of_mem htrades trade htrade
    have hreasons := hjustified leg hleg
    rw [tradeOf_exit htrade]
    exact Int.ofNat_le.2 (Nat.le_trans hreasons.positive hreasons.ordered)

/-- No trade has ended by the first bar. -/
theorem endedBy_zero (hpending : Pending 1 trades) : endedBy 0 trades = [] := by
  refine List.filter_eq_nil_iff.2 fun trade htrade => ?_
  have hfirst := hpending.from_bar trade htrade
  rw [decide_eq_true_iff]
  omega

/-- At a bar without an exit, the trades that have ended stay the same. -/
theorem endedBy_of_no_exit {bar : ℕ}
    (hnone : ∀ trade ∈ trades, trade.exit ≠ ((bar + 1 : ℕ) : ℤ)) :
    endedBy (bar + 1) trades = endedBy bar trades := by
  refine List.filter_congr fun trade htrade => decide_eq_decide.2 ?_
  have hexit := hnone trade htrade
  omega

theorem defined_of_tradesOf {legs : List Leg} (hcloses : ClosesSatisfy (· ≠ 0) prices)
    (htrades : tradesOf prices asset legs = .ok trades) : Defined trades := by
  intro trade htrade
  obtain ⟨leg, _, htrade⟩ := exists_leg_of_mem htrades trade htrade
  obtain ⟨_, _, _, _, hpriced⟩ := exists_priced hcloses (fun _ hprice => hprice) htrade
  exact hpriced.percent_eq_profit

/-- When the last bar is over, all trades have ended. -/
theorem endedBy_last
    (htrades : tradesOf prices asset (legs prices.length signals fromFlat) = .ok trades) :
    endedBy (prices.length - 1) trades = trades := by
  refine List.filter_eq_self.2 fun trade htrade => decide_eq_true ?_
  obtain ⟨leg, hleg, htrade⟩ := exists_leg_of_mem htrades trade htrade
  have hexit := (legs_bounds fromFlat hleg).2
  rw [tradeOf_exit htrade]
  omega

/-- Where no signal asks for a short position, no trade is short. -/
theorem long_of_tradesOf (hlong : ∀ bar, SignalKind.openShort ∉ activeAt signals bar)
    (htrades : tradesOf prices asset (legs prices.length signals fromFlat) = .ok trades) :
    ∀ trade ∈ trades, trade.direction = .long := by
  intro trade htrade
  obtain ⟨leg, hleg, htrade⟩ := exists_leg_of_mem htrades trade htrade
  obtain ⟨kind, hkind, hopens⟩ := (legs_justified _ signals fromFlat leg hleg).opened
  have hdirection : trade.direction = leg.direction := congrArg (·.2.2) (tradeOf_outline htrade)
  rw [hdirection]
  cases kind with
  | openLong => exact (Option.some.inj hopens).symm
  | openShort => exact absurd hkind (hlong leg.entry)
  | closeLong | closeShort | closeAny => cases hopens

/-- Without signals for short positions and over positive prices, every gain is a positive ratio of
prices. -/
theorem gains_of_tradesOf (hlong : ∀ bar, SignalKind.openShort ∉ activeAt signals bar)
    (hpositive : ClosesSatisfy (0 < ·) prices)
    (htrades : tradesOf prices asset (legs prices.length signals fromFlat) = .ok trades) :
    ∀ trade ∈ trades, gain trade = priceRatio trade ∧ 0 < priceRatio trade := by
  intro trade htrade
  have hdirection := long_of_tradesOf hlong htrades trade htrade
  obtain ⟨leg, _, htrade⟩ := exists_leg_of_mem htrades trade htrade
  obtain ⟨entryPrice, exitPrice, hentry, hexit, hpriced⟩ :=
    exists_priced hpositive (fun _ => ne_of_gt) htrade
  rw [hpriced.gain_eq_priceRatio hdirection, hpriced.priceRatio_eq]
  exact ⟨rfl, div_pos hexit hentry⟩

/-- The trade of the forced close is the last one. -/
theorem getLast?_of_tradesOf {position : Position}
    (hheld : heldAfter prices.length signals fromFlat (prices.length - 1) = some position)
    (htrades : tradesOf prices asset (legs prices.length signals fromFlat) = .ok trades) :
    ∃ trade, trades.getLast? = some trade ∧
      tradeOutline trade = (position.closeAt (prices.length - 1)).outline := by
  have houtlines := congrArg List.getLast? (tradesOf_outline htrades)
  rw [legs_eq_append, hheld, List.map_append, List.getLast?_map] at houtlines
  change _ = (_ ++ [(position.closeAt (prices.length - 1)).outline]).getLast? at houtlines
  rw [List.getLast?_concat] at houtlines
  exact Option.map_eq_some_iff.1 houtlines

/-- The equity curve of a simulation and its trades. -/
structure Compounds (prices : Prices Ideal) (signals : List (SignalKind × Flags))
    (fromFlat : Bool) (trades : List (Trade Ideal)) (equity : Series Ideal) : Prop where
  defined : ∀ trade ∈ trades, trade.percent = .finite (profit trade)
  length_eq : equity.length = prices.length
  first_eq : equity[0]? = some (.finite 100)
  getElem?_eq : ∀ bar < prices.length,
    equity[bar]? = some (.finite (compound gain (endedBy bar trades)))
  ledger_eq : equity = (ledger 100 trades 0 prices.length).map Ideal.finite
  /-- The equity changes at exits only. -/
  steady : ∀ bar, bar + 1 < prices.length →
    (∀ trade ∈ trades, trade.exit ≠ ((bar + 1 : ℕ) : ℤ)) → equity[bar + 1]? = equity[bar]?
  /-- At the end all trades count. -/
  last_eq : equity.getLast? = some (.finite (compound gain trades))
  /-- The last trade is that of the forced close, if there is one. -/
  forced : ∀ position,
    heldAfter prices.length signals fromFlat (prices.length - 1) = some position →
      ∃ trade, trades.getLast? = some trade ∧
        tradeOutline trade = (position.closeAt (prices.length - 1)).outline

/-- The equity of a simulation over non-zero prices is the compound growth of its closed trades, the
forced close included.  Without signals for short positions and over positive prices it is positive
and grows with the prices of the trades. -/
theorem equity_compounds {prices : Prices Ideal} (signals : List (SignalKind × Flags))
    (asset : Option (Asset Ideal)) (fromFlat : Bool) (hbars : 1 ≤ prices.length)
    (htimestamps : prices.timestamp.length = prices.length)
    (hcloses : ClosesSatisfy (· ≠ 0) prices) :
    ∃ trades equity, simulate prices signals asset fromFlat = .ok (trades, equity) ∧
      Compounds prices signals fromFlat trades equity ∧
      ((∀ bar, SignalKind.openShort ∉ activeAt signals bar) → ClosesSatisfy (0 < ·) prices →
        ∀ bar < prices.length, 0 < compound priceRatio (endedBy bar trades) ∧
          equity[bar]? = some (.finite (compound priceRatio (endedBy bar trades)))) := by
  obtain ⟨trades, htrades⟩ := exists_tradesOf asset htimestamps (same_zero_of_closes hcloses)
    fun leg (hleg : leg ∈ legs prices.length signals fromFlat) => legs_bounds fromFlat hleg
  have hdefined := defined_of_tradesOf hcloses htrades
  have hpending := pending_of_tradesOf htrades
  have hfromZero : Pending 0 trades :=
    ⟨hpending.sorted, fun trade htrade => (Int.zero_le_ofNat 1).trans (hpending.from_bar trade htrade)⟩
  have hequity (bar : ℕ) (hbar : bar < prices.length) :
      (equityCurve prices.length trades)[bar]? =
        some (.finite (compound gain (endedBy bar trades))) := by
    rw [equityCurve_eq hdefined hfromZero.from_bar, List.getElem?_map, List.getElem?_range hbar]
    rfl
  refine ⟨trades, equityCurve prices.length trades, simulate_eq_ok.2 ⟨htrades, rfl⟩,
    ⟨hdefined, length_equityCurve _ _, ?_, hequity, equityCurve_eq_ledger hdefined hfromZero _, ?_,
      ?_, fun position hheld => getLast?_of_tradesOf hheld htrades⟩, ?_⟩
  · rw [hequity 0 hbars, endedBy_zero hpending]
    simp [compound]
  · intro bar hbar hnone
    rw [hequity _ hbar, hequity _ (Nat.lt_of_succ_lt hbar), endedBy_of_no_exit hnone]
  · rw [List.getLast?_eq_getElem?, length_equityCurve, hequity _ (Nat.sub_lt hbars Nat.one_pos),
      endedBy_last htrades]
  · intro hlong hpositive bar hbar
    have hgains : ∀ trade ∈ endedBy bar trades,
        gain trade = priceRatio trade ∧ 0 < priceRatio trade := fun trade htrade =>
      gains_of_tradesOf hlong hpositive htrades trade (List.mem_of_mem_filter htrade)
    have hcompound : compound gain (endedBy bar trades) =
        compound priceRatio (endedBy bar trades) := by
      rw [compound, compound, List.map_congr_left fun trade htrade => (hgains trade htrade).1]
    refine ⟨mul_pos (by norm_num) (List.prod_pos ?_), hcompound ▸ hequity bar hbar⟩
    exact List.forall_mem_map.2 fun trade htrade => (hgains trade htrade).2

/-- Four bars: up by half, then down by a third, then up to twice the first close. -/
noncomputable def bouncePrices : Prices Ideal :=
  let column : Series Ideal := [2, 3, 2, 4].map fun price : ℕ => .finite price
  ⟨[0, 60000, 120000, 180000], column, column, column, column, column⟩

/-- Long at the second bar and again, after a close, at the third one, where the run is long to its
end. -/
def bounceSignals : List (SignalKind × Flags) :=
  [(.closeLong, [false, false, true, false]), (.openLong, [false, true, true, false])]

theorem equity_compounds_bounce : 1 ≤ bouncePrices.length ∧
    bouncePrices.timestamp.length = bouncePrices.length ∧ ClosesSatisfy (· ≠ 0) bouncePrices ∧
    (∀ bar, SignalKind.openShort ∉ activeAt bounceSignals bar) ∧
    ClosesSatisfy (0 < ·) bouncePrices ∧
    ∃ trades equity, simulate bouncePrices bounceSignals none false = .ok (trades, equity) ∧
      Compounds bouncePrices bounceSignals false trades equity ∧
      trades.map tradeOutline = [(1, 2, .long), (2, 3, .long)] ∧
      (∀ bar < 4, 0 < compound priceRatio (endedBy bar trades) ∧
        equity[bar]? = some (.finite (compound priceRatio (endedBy bar trades)))) := by
  have hpositive : ClosesSatisfy (0 < ·) bouncePrices := by
    intro x hx
    obtain ⟨price, hprice, rfl⟩ := List.mem_map.1 hx
    have hprices : ∀ price ∈ [2, 3, 2, 4], 0 < price := by decide
    exact ⟨price, Nat.cast_pos.2 (hprices price hprice), rfl⟩
  have hnonzero : ClosesSatisfy (· ≠ 0) bouncePrices := fun x hx =>
    have ⟨price, hprice, heq⟩ := hpositive x hx
    ⟨price, ne_of_gt hprice, heq⟩
  have hlong : ∀ bar, SignalKind.openShort ∉ activeAt bounceSignals bar := by
    intro bar hmem
    obtain ⟨signal, hsignal, hkind⟩ := List.mem_filterMap.1 hmem
    obtain ⟨_, hkind⟩ := Option.ite_none_right_eq_some.1 hkind
    have hkinds : ∀ signal ∈ bounceSignals, signal.1 ≠ .openShort := by decide
    exact hkinds signal hsignal (Option.some.inj hkind)
  obtain ⟨trades, equity, hrun, hcompounds, hgrowth⟩ :=
    equity_compounds bounceSignals none false (by decide : 1 ≤ bouncePrices.length) rfl hnonzero
  exact ⟨by decide, rfl, hnonzero, hlong, hpositive, trades, equity, hrun, hcompounds,
    tradesOf_outline (simulate_eq_ok.1 hrun).1, hgrowth hlong hpositive⟩

end Simulations

end Backtest.Simulation
