import Backtest.Proofs.Decimal.Quotient
import Backtest.Proofs.Prices
import Backtest.Proofs.Simulation.Truncation
import Backtest.Report

/-!
# What can stop a report

The signals of a run are simulated, and what they trade is summed up.  Over an accepted table each
leg lies within the bars, so there are only two faults left: a leg that opens at a close of zero has
no percentage, and a trade that ends outside the calendar has no month.  A report that meets neither
exists (`ofSignals_failsBy`).

The numbers need not be doubles; it is enough that the span between two timestamps has a quotient.
-/

namespace Backtest

open Arith Outcome

variable {α : Type} [Arith α]

/-! ## Trades -/

namespace Simulation

variable {prices : Prices α} {asset : Option (Asset α)} {leg : Leg}

omit [Arith α] in
theorem mem_of_entryAt {β : Type} {column : List β} {index : Int} {x : β}
    (hx : entryAt column index = .ok x) : x ∈ column := by
  unfold entryAt at hx
  dsimp only at hx
  generalize (if index < 0 then index + column.length else index) = place at hx
  split at hx
  · exact nomatch hx
  · split at hx
    · next hplace =>
        injection hx with hx
        exact hx ▸ List.mem_of_getElem? hplace
    · exact nomatch hx

/-- A trade ends at a timestamp of the table. -/
theorem mem_exitTimestamp {trade : Trade α} (htrade : tradeOf prices asset leg = .ok trade) :
    trade.exitTimestamp ∈ prices.timestamp :=
  mem_of_entryAt (settles_of_tradeOf htrade).exitTimestamp

theorem mem_exitTimestamps {legs : List Leg} {trades : List (Trade α)}
    (htrades : tradesOf prices asset legs = .ok trades) :
    ∀ trade ∈ trades, trade.exitTimestamp ∈ prices.timestamp := by
  intro trade htrade
  obtain ⟨leg, _, htrade⟩ := exists_leg_of_mem htrades trade htrade
  exact mem_exitTimestamp htrade

/-- A close at which no position can be opened. -/
def HasZeroClose (prices : Prices α) : Prop := ∃ x ∈ prices.close, same x zero = true

/-- The fault of a leg that opens at a close of zero. -/
def ZeroClose (prices : Prices α) (fault : Fault) : Prop :=
  fault = .divisionByZero ∧ HasZeroClose prices

theorem tradeOf_failsBy (haccepted : prices.Accepted) (hleg : leg.entry ≤ leg.exit)
    (hexit : leg.exit < prices.length) : FailsBy (ZeroClose prices) (tradeOf prices asset leg) := by
  have hentry : leg.entry < prices.length := Nat.lt_of_le_of_lt hleg hexit
  have htimestamps := haccepted.timestamps
  refine failsBy_bind (failsBy_of_eq_ok (entryAt_natCast hentry)) fun entryPrice hprice => ?_
  refine failsBy_bind (failsBy_of_eq_ok (entryAt_natCast hexit)) fun exitPrice _ => ?_
  dsimp only
  split
  · next hzero => exact failsBy_error ⟨rfl, entryPrice, mem_of_entryAt hprice, hzero⟩
  · refine failsBy_bind (failsBy_of_eq_ok (entryAt_natCast (htimestamps ▸ hentry))) fun _ _ => ?_
    exact failsBy_bind (failsBy_of_eq_ok (entryAt_natCast (htimestamps ▸ hexit))) fun _ _ =>
      failsBy_ok _ _

theorem tradesOf_failsBy (haccepted : prices.Accepted) {legs : List Leg}
    (hlegs : ∀ leg ∈ legs, leg.entry ≤ leg.exit ∧ leg.exit < prices.length) :
    FailsBy (ZeroClose prices) (tradesOf prices asset legs) := by
  induction legs with
  | nil => exact failsBy_ok _ _
  | cons leg rest ih =>
      obtain ⟨hentry, hexit⟩ := hlegs leg List.mem_cons_self
      have hrest := ih fun other hother => hlegs other (List.mem_cons_of_mem _ hother)
      refine failsBy_bind (tradeOf_failsBy haccepted hentry hexit) fun trade _ => ?_
      exact failsBy_bind hrest fun others _ => failsBy_ok _ _

end Simulation

/-! ## Sums -/

namespace Summary

/-- The quotients of the spans between two timestamps, counted in days, exist. -/
def DividesSpans (α : Type) [Arith α] : Prop :=
  ∀ span : Int, span.natAbs < 2 ^ 64 → ∃ days : α, quotient? span millisPerDay = some days

theorem dividesSpans_float : DividesSpans Float := by
  intro span hspan
  have hlog : span.natAbs.log2 ≤ 63 := log2_le_of_lt hspan
  exact Double.exists_quotient millisPerDay (Nat.le_trans hlog (by decide))

/-- The span between two 64-bit timestamps has fewer than 65 bits. -/
theorem natAbs_span_lt {first last : Int} (hfirst : fitsWord first = true)
    (hlast : fitsWord last = true) : (last - first).natAbs < 2 ^ 64 := by
  have hword : ((Nat.pow 2 63 : Nat) : Int) = 9223372036854775808 := by decide
  simp only [fitsWord, hword, Bool.and_eq_true, decide_eq_true_eq] at hfirst hlast
  omega

theorem exists_years (hspans : DividesSpans α) {first last : Int} (hfirst : fitsWord first = true)
    (hlast : fitsWord last = true) : ∃ span : α, years first last = .ok span := by
  obtain ⟨days, hdays⟩ := hspans _ (natAbs_span_lt hfirst hlast)
  rw [years, hdays]
  exact ⟨_, rfl⟩

omit [Arith α] in
theorem exists_entryAt_last {β : Type} {column : List β} (hcolumn : 0 < column.length) :
    ∃ x, Simulation.entryAt column (-1) = .ok x := by
  have hnegative : (-1 : Int) < 0 := by decide
  have hnonneg : ¬ -1 + (column.length : Int) < 0 := by omega
  have hplace : (-1 + (column.length : Int)).toNat < column.length := by omega
  refine ⟨column[(-1 + (column.length : Int)).toNat], ?_⟩
  rw [Simulation.entryAt, if_pos hnegative, if_neg hnonneg, List.getElem?_eq_getElem hplace]

/-- The metrics of a run over an accepted table exist. -/
theorem exists_metrics (hspans : DividesSpans α) {prices : Prices α} (haccepted : prices.Accepted)
    (trades : List (Trade α)) {equity : Series α} (hequity : 0 < equity.length) :
    ∃ summary, metrics trades equity prices.timestamp = .ok summary := by
  have hcount : 0 < prices.timestamp.length := haccepted.timestamps ▸ haccepted.nonempty
  obtain ⟨last, hlast⟩ := exists_entryAt_last hequity
  obtain ⟨final, hfinal⟩ := exists_entryAt_last hcount
  have hinitial := Simulation.entryAt_natCast hcount
  obtain ⟨span, hspan⟩ := exists_years hspans
    (haccepted.words _ (Simulation.mem_of_entryAt hinitial))
    (haccepted.words _ (Simulation.mem_of_entryAt hfinal))
  rw [metrics]
  split
  · exact ⟨_, rfl⟩
  · rw [hlast, hfinal]
    change ∃ summary, (Simulation.entryAt prices.timestamp (0 : Nat) >>= _) = _
    rw [hinitial]
    change ∃ summary, (years _ final >>= _) = _
    rw [hspan]
    exact ⟨_, rfl⟩

/-- A moment in a year of the calendar. -/
def Dated (millis : Int) : Prop :=
  firstYear ≤ (Calendar.Day.ofMillis millis).year ∧ (Calendar.Day.ofMillis millis).year ≤ lastYear

omit [Arith α] in
theorem isDated_iff {trade : Trade α} : isDated trade = true ↔ Dated trade.exitTimestamp := by
  simp only [isDated, monthOfExit, Bool.and_eq_true]
  exact and_congr decide_eq_true_iff decide_eq_true_iff

/-- The fault of a trade that ends outside the calendar. -/
def Undated (prices : Prices α) (fault : Fault) : Prop :=
  fault = .outsideCalendar ∧ ∃ timestamp ∈ prices.timestamp, ¬ Dated timestamp

theorem monthly_failsBy {prices : Prices α} {trades : List (Trade α)}
    (hexits : ∀ trade ∈ trades, trade.exitTimestamp ∈ prices.timestamp) :
    FailsBy (Undated prices) (monthly trades) := by
  rw [monthly]
  split
  · exact failsBy_ok _ _
  · next hundated =>
      rw [Bool.not_eq_true, List.all_eq_false] at hundated
      obtain ⟨trade, htrade, hdate⟩ := hundated
      exact failsBy_error ⟨rfl, _, hexits trade htrade, fun hdated => hdate (isDated_iff.2 hdated)⟩

end Summary

/-! ## Reports -/

/-- The report of any signals over an accepted table exists, unless a close of zero or a moment
outside the calendar is in its way. -/
theorem Report.ofSignals_failsBy (hspans : Summary.DividesSpans α) {prices : Prices α}
    (haccepted : prices.Accepted) (signals : List (SignalKind × Flags)) (fromFlat : Bool)
    (params : Params α) (asset : Option (Asset α)) :
    FailsBy (fun fault => Simulation.ZeroClose prices fault ∨ Summary.Undated prices fault)
      (ofSignals prices signals fromFlat params asset) := by
  refine failsBy_bind ?_ fun result hresult => ?_
  · have htrades : FailsBy (Simulation.ZeroClose prices)
        (Simulation.tradesOf prices asset (Simulation.legs prices.length signals fromFlat)) :=
      Simulation.tradesOf_failsBy haccepted fun leg hleg =>
        Simulation.legs_bounds fromFlat hleg
    exact failsBy_bind (htrades.mono fun _ => .inl) fun trades _ => failsBy_ok _ _
  · obtain ⟨trades, htrades, hresult⟩ := bind_eq_ok.1 hresult
    injection hresult with hresult
    rw [← hresult]
    dsimp only
    have hequity : 0 < (Simulation.equityCurve prices.length trades).length := by
      rw [Simulation.length_equityCurve]
      exact haccepted.nonempty
    obtain ⟨summary, hsummary⟩ := Summary.exists_metrics hspans haccepted trades hequity
    refine failsBy_bind (failsBy_of_eq_ok hsummary) fun _ _ => ?_
    have hmonthly := Summary.monthly_failsBy (Simulation.mem_exitTimestamps htrades)
    exact failsBy_bind (hmonthly.mono fun _ => .inr) fun _ _ => failsBy_ok _ _

end Backtest
