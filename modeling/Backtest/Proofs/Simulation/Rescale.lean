import Backtest.Proofs.Series.Rescale
import Backtest.Report

/-!
# Simulations in another unit

The same signals over prices in another unit give the same legs, closed at the same bars.  The
profit of a trade in points and in money is in the new unit; its percentage has no unit.  So the
equity, which is made of percentages alone, is the same at every bar, and of the metrics only the
totals of points and of money can change.
-/

namespace Backtest

open Arith

variable {α : Type}

/-! ## Prices and trades -/

/-- A bar with its prices in another unit; the volume is no price. -/
def Bar.rescale (change : α → α) (bar : Bar α) : Bar α :=
  { bar with
    opening := change bar.opening
    high := change bar.high
    low := change bar.low
    close := change bar.close }

/-- A price table in another unit. -/
def Prices.rescale (change : α → α) (prices : Prices α) : Prices α :=
  { prices with
    opening := prices.opening.map change
    high := prices.high.map change
    low := prices.low.map change
    close := prices.close.map change }

/-- A trade with its prices and its profit in another unit. -/
def Trade.rescale (change : α → α) (trade : Trade α) : Trade α :=
  { trade with
    entryPrice := change trade.entryPrice
    exitPrice := change trade.exitPrice
    points := change trade.points
    dollars := change trade.dollars }

/-- A monthly result with its profit in another unit. -/
def MonthlyRow.rescale (change : α → α) (row : MonthlyRow α) : MonthlyRow α :=
  { row with
    dollars := change row.dollars
    points := change row.points }

namespace Prices

variable {change : α → α}

theorem ofBars_rescale (bars : List (Bar α)) :
    ofBars (bars.map (Bar.rescale change)) = (ofBars bars).map (rescale change) := by
  rw [ofBars, ofBars, List.all_map, apply_ite (Except.map (rescale change))]
  simp only [List.map_map, Except.map, rescale]
  rfl

variable [Arith α] (hchange : Rescales change)
include hchange

theorem findIdx?_rescale (xs : Series α) :
    (xs.map change).findIdx? (fun x => !isFinite x) = xs.findIdx? fun x => !isFinite x := by
  rw [List.findIdx?_map]
  simp only [Function.comp_def, hchange.isFinite_eq]

/-- A table is accepted in every unit, or turned away by the same flaw. -/
theorem validate_rescale (prices : Prices α) :
    (prices.rescale change).validate = prices.validate.map (rescale change) := by
  have hlength : (prices.rescale change).length = prices.length := List.length_map _
  have hundefined : (prices.rescale change).firstUndefined = prices.firstUndefined := by
    simp only [firstUndefined, rescale, List.findSome?_cons, findIdx?_rescale hchange]
  have htimestamp : (prices.rescale change).timestamp = prices.timestamp := rfl
  rw [validate, validate, hlength, htimestamp, hundefined]
  split
  · rfl
  · cases firstDisorder 1 prices.timestamp with
    | some bar => rfl
    | none => cases prices.firstUndefined <;> rfl

theorem ofValidBars_rescale (bars : List (Bar α)) :
    ofValidBars (bars.map (Bar.rescale change)) = (ofValidBars bars).map (rescale change) := by
  rw [ofValidBars, ofValidBars, ofBars_rescale]
  cases ofBars bars with
  | error fault => rfl
  | ok prices => exact validate_rescale hchange prices

end Prices

namespace Simulation

variable {change : α → α}

theorem entryAt_map {β γ : Type} (f : β → γ) (column : List β) (index : Int) :
    entryAt (column.map f) index = (entryAt column index).map f := by
  rw [entryAt, entryAt, List.length_map]
  generalize (if index < 0 then index + column.length else index) = place
  split
  · rfl
  · rw [List.getElem?_map]
    cases column[place.toNat]? <;> rfl

variable [Arith α] (hchange : Rescales change)
include hchange

theorem pointsOf_rescale (direction : Direction) (entryPrice exitPrice : α) :
    pointsOf direction (change entryPrice) (change exitPrice) =
      change (pointsOf direction entryPrice exitPrice) := by
  cases direction with
  | long => exact hchange.sub_eq ..
  | short => exact hchange.sub_eq ..

theorem dollarsOf_rescale (asset : Option (Asset α)) (points : α) :
    dollarsOf asset (change points) = change (dollarsOf asset points) := by
  match asset with
  | none => exact hchange.zero_eq.symm
  | some ⟨.percentage, _⟩ => exact hchange.zero_eq.symm
  | some ⟨.pointValue, _⟩ => exact hchange.mul_right_eq ..

theorem closeTrade_rescale (prices : Prices α) (asset : Option (Asset α)) (direction : Direction)
    (entry : Int) (entryPrice : α) (exit : Int) :
    closeTrade (prices.rescale change) asset direction entry (change entryPrice) exit =
      (closeTrade prices asset direction entry entryPrice exit).map (Trade.rescale change) := by
  simp only [closeTrade, Prices.rescale, entryAt_map]
  cases entryAt prices.close exit with
  | error fault => rfl
  | ok exitPrice =>
      simp only [Except.map, bind, Except.bind, pointsOf_rescale hchange,
        hchange.same_zero_eq, hchange.ratio_eq, dollarsOf_rescale hchange]
      split
      · rfl
      · cases entryAt prices.timestamp entry with
        | error fault => rfl
        | ok entryTimestamp => cases entryAt prices.timestamp exit <;> rfl

theorem tradeOf_rescale (prices : Prices α) (asset : Option (Asset α)) (leg : Leg) :
    tradeOf (prices.rescale change) asset leg =
      (tradeOf prices asset leg).map (Trade.rescale change) := by
  have hentry : entryAt (prices.rescale change).close leg.entry =
      (entryAt prices.close leg.entry).map change := entryAt_map ..
  rw [tradeOf, tradeOf, hentry]
  cases entryAt prices.close leg.entry with
  | error fault => rfl
  | ok entryPrice => exact closeTrade_rescale hchange ..

theorem tradesOf_rescale (prices : Prices α) (asset : Option (Asset α)) (legs : List Leg) :
    tradesOf (prices.rescale change) asset legs =
      (tradesOf prices asset legs).map (List.map (Trade.rescale change)) := by
  induction legs with
  | nil => rfl
  | cons leg rest ih =>
      rw [tradesOf, tradesOf, tradeOf_rescale hchange, ih]
      cases tradeOf prices asset leg with
      | error fault => rfl
      | ok trade => cases tradesOf prices asset rest <;> rfl

omit hchange in
theorem equityCurve_rescale (bars : Nat) (trades : List (Trade α)) :
    equityCurve bars (trades.map (Trade.rescale change)) = equityCurve bars trades := by
  have hfactor : factorAt (trades.map (Trade.rescale change)) = factorAt trades := by
    funext bar
    exact List.foldl_map
  rw [equityCurve, equityCurve, hfactor]

theorem simulate_rescale (prices : Prices α) (signals : List (SignalKind × Flags))
    (asset : Option (Asset α)) (fromFlat : Bool) :
    simulate (prices.rescale change) signals asset fromFlat =
      (simulate prices signals asset fromFlat).map
        (Prod.map (List.map (Trade.rescale change)) id) := by
  have hlength : (prices.rescale change).length = prices.length := List.length_map _
  rw [simulate, simulate, hlength, tradesOf_rescale hchange]
  cases tradesOf prices asset (legs prices.length signals fromFlat) with
  | error fault => rfl
  | ok trades =>
      exact congrArg (fun equity => Except.ok (trades.map (Trade.rescale change), equity))
        (equityCurve_rescale prices.length trades)

end Simulation

/-! ## Summaries -/

/-- Metrics that differ at most in the totals of points and of money. -/
def Metrics.SameRatios (metrics other : Metrics α) : Prop :=
  other = { metrics with dollars := other.dollars, points := other.points }

namespace Summary

/-- A running sum in another unit. -/
def Compensated.rescale (change : α → α) (sum : Compensated α) : Compensated α :=
  ⟨change sum.total, change sum.excess⟩

variable {change : α → α} [Arith α]

theorem metrics_rescale (trades : List (Trade α)) (equity : Series α) (timestamps : List Int) :
    Outcome.Alike Metrics.SameRatios (metrics trades equity timestamps)
      (metrics (trades.map (Trade.rescale change)) equity timestamps) := by
  have hpercents : (trades.map (Trade.rescale change)).map (·.percent) =
      trades.map (·.percent) := List.map_map
  rw [metrics, metrics, hpercents, List.isEmpty_map, List.length_map]
  by_cases hempty : trades.isEmpty
  · rw [if_pos hempty, if_pos hempty]
    exact .ok rfl
  · rw [if_neg hempty, if_neg hempty]
    refine Outcome.alike_bind_eq rfl fun last => ?_
    refine Outcome.alike_bind_eq rfl fun final => ?_
    refine Outcome.alike_bind_eq rfl fun initial => ?_
    refine Outcome.alike_bind_eq rfl fun span => ?_
    exact .ok rfl

section Months

variable (hchange : Rescales change)
include hchange

theorem Compensated.add_rescale (sum : Compensated α) (x : α) :
    (sum.rescale change).add (change x) = (sum.add x).rescale change := by
  simp only [Compensated.add, Compensated.rescale, hchange.sub_eq, hchange.add_eq,
    hchange.isFinite_eq, apply_ite change]

theorem compensatedSum_rescale (xs : List α) :
    compensatedSum (xs.map change) = change (compensatedSum xs) := by
  have hfold (rest : List α) (sum : Compensated α) :
      (rest.map change).foldl Compensated.add (sum.rescale change) =
        (rest.foldl Compensated.add sum).rescale change := by
    induction rest generalizing sum with
    | nil => rfl
    | cons x rest ih =>
        rw [List.map_cons, List.foldl_cons, Compensated.add_rescale hchange, ih, List.foldl_cons]
  have hstart : Compensated.rescale change ⟨zero, zero⟩ = (⟨zero, zero⟩ : Compensated α) := by
    rw [Compensated.rescale, hchange.zero_eq]
  match xs with
  | [] => exact hchange.zero_eq.symm
  | [x] => rfl
  | x :: y :: rest =>
      have hsum := congrArg Compensated.total (hfold (x :: y :: rest) ⟨zero, zero⟩)
      rw [hstart] at hsum
      exact hsum

theorem monthlyRow_rescale (trades : List (Trade α)) (month : Int × Nat) :
    monthlyRow (trades.map (Trade.rescale change)) month =
      (monthlyRow trades month).rescale change := by
  have hown : (trades.map (Trade.rescale change)).filter (fun trade => monthOfExit trade = month) =
      (trades.filter fun trade => monthOfExit trade = month).map (Trade.rescale change) :=
    List.filter_map
  simp only [monthlyRow, hown]
  generalize trades.filter (fun trade => monthOfExit trade = month) = own
  have hwins : (own.map (Trade.rescale change)).filter isMonthlyWin =
      (own.filter isMonthlyWin).map (Trade.rescale change) := List.filter_map
  have hpercents : (own.map (Trade.rescale change)).map (·.percent) = own.map (·.percent) :=
    List.map_map
  have hdollars : (own.map (Trade.rescale change)).map (·.dollars) =
      (own.map (·.dollars)).map change := by
    rw [List.map_map, List.map_map]
    rfl
  have hpoints : (own.map (Trade.rescale change)).map (·.points) =
      (own.map (·.points)).map change := by
    rw [List.map_map, List.map_map]
    rfl
  rw [hwins, hpercents, hdollars, hpoints, List.length_map, List.length_map,
    compensatedSum_rescale hchange, compensatedSum_rescale hchange]
  rfl

theorem monthly_rescale (trades : List (Trade α)) :
    monthly (trades.map (Trade.rescale change)) =
      (monthly trades).map (List.map (MonthlyRow.rescale change)) := by
  have hmonths : monthsOf (trades.map (Trade.rescale change)) = monthsOf trades :=
    List.foldl_map
  have hdated : (trades.map (Trade.rescale change)).all isDated = trades.all isDated :=
    List.all_map
  rw [monthly, monthly, hmonths, hdated, funext (monthlyRow_rescale hchange trades)]
  split
  · rw [Except.map, List.map_map]
    rfl
  · rfl

end Months

end Summary

end Backtest
