import Backtest.Proofs.Exact
import Backtest.Proofs.Outcome
import Backtest.Proofs.Simulation.Walk
import Backtest.Simulation.Trade

/-!
# Simulations over the first bars

A simulation does not look ahead.  Over the first bars of a table it gives the trades that signals
close there in the whole simulation, and one more trade exactly if the whole simulation holds a
position at the last of these bars.  Up to that bar both equity curves are the same.

The trades come from the legs of `legs_truncate`; a leg within the first bars reads the same prices
and timestamps from both tables.
-/

namespace Backtest.Simulation

open Arith

variable {α : Type} [Arith α]

/-! ## The trade of a leg -/

section Legs

variable {prices : Prices α} {asset : Option (Asset α)} {leg : Leg}

omit [Arith α] in
theorem entryAt_natCast {β : Type} {column : List β} {bar : Nat} (hbar : bar < column.length) :
    entryAt column bar = .ok column[bar] := by
  have hnonneg : ¬ (bar : Int) < 0 := by omega
  rw [entryAt, if_neg hnonneg, if_neg hnonneg, Int.toNat_natCast, List.getElem?_eq_getElem hbar]

omit [Arith α] in
theorem entryAt_take {β : Type} {column : List β} {count bar : Nat} (hbar : bar < count) :
    entryAt (column.take count) bar = entryAt column bar := by
  have hnonneg : ¬ (bar : Int) < 0 := by omega
  rw [entryAt, entryAt, if_neg hnonneg, if_neg hnonneg, if_neg hnonneg, if_neg hnonneg,
    Int.toNat_natCast,
    List.getElem?_take_of_lt hbar]

/-- The bars and the direction of a leg. -/
def Leg.outline (leg : Leg) : Int × Int × Direction := (leg.entry, leg.exit, leg.direction)

/-- The bars and the direction of a trade. -/
def tradeOutline (trade : Trade α) : Int × Int × Direction :=
  (trade.entry, trade.exit, trade.direction)

/-- A trade settles a leg: it has the bars and the direction of the leg, the prices and timestamps of
the table at these bars, the first price not zero, and the profit of the direction between them. -/
structure Settles (prices : Prices α) (asset : Option (Asset α)) (leg : Leg) (trade : Trade α) :
    Prop where
  outline : tradeOutline trade = leg.outline
  entryPrice : entryAt prices.close leg.entry = .ok trade.entryPrice
  exitPrice : entryAt prices.close leg.exit = .ok trade.exitPrice
  entryTimestamp : entryAt prices.timestamp leg.entry = .ok trade.entryTimestamp
  exitTimestamp : entryAt prices.timestamp leg.exit = .ok trade.exitTimestamp
  entryPrice_ne_zero : same trade.entryPrice zero = false
  points_eq : trade.points = pointsOf trade.direction trade.entryPrice trade.exitPrice
  percent_eq : trade.percent = trade.points / trade.entryPrice * ofNat 100
  dollars_eq : trade.dollars = dollarsOf asset trade.points

theorem settles_of_tradeOf {trade : Trade α} (htrade : tradeOf prices asset leg = .ok trade) :
    Settles prices asset leg trade := by
  obtain ⟨entryPrice, hentryPrice, htrade⟩ := Outcome.bind_eq_ok.1 htrade
  obtain ⟨exitPrice, hexitPrice, htrade⟩ := Outcome.bind_eq_ok.1 htrade
  dsimp only at htrade
  split at htrade
  · exact nomatch htrade
  · next hzero =>
      obtain ⟨entryTimestamp, hentryTimestamp, htrade⟩ := Outcome.bind_eq_ok.1 htrade
      obtain ⟨exitTimestamp, hexitTimestamp, htrade⟩ := Outcome.bind_eq_ok.1 htrade
      injection htrade with htrade
      rw [← htrade]
      exact ⟨rfl, hentryPrice, hexitPrice, hentryTimestamp, hexitTimestamp,
        Bool.eq_false_iff.2 hzero, rfl, rfl, rfl⟩

/-- A trade has the bars and the direction of its leg. -/
theorem tradeOf_outline {trade : Trade α} (htrade : tradeOf prices asset leg = .ok trade) :
    tradeOutline trade = leg.outline :=
  (settles_of_tradeOf htrade).outline

theorem tradeOf_exit {trade : Trade α} (htrade : tradeOf prices asset leg = .ok trade) :
    trade.exit = leg.exit :=
  congrArg (·.2.1) (tradeOf_outline htrade)

/-- A leg within a table of non-zero closes has a trade. -/
theorem exists_tradeOf (asset : Option (Asset α))
    (htimestamps : prices.timestamp.length = prices.length)
    (hcloses : ∀ x ∈ prices.close, same x zero = false) (hleg : leg.entry ≤ leg.exit)
    (hexit : leg.exit < prices.length) : ∃ trade, tradeOf prices asset leg = .ok trade := by
  have hentry : leg.entry < prices.length := Nat.lt_of_le_of_lt hleg hexit
  rw [tradeOf, entryAt_natCast hentry]
  change ∃ trade, closeTrade prices asset leg.direction leg.entry prices.close[leg.entry] leg.exit =
    .ok trade
  rw [closeTrade, entryAt_natCast hexit]
  change ∃ trade, (if same prices.close[leg.entry] zero = true then _ else _) = _
  rw [hcloses _ (List.getElem_mem hentry), if_neg Bool.false_ne_true,
    entryAt_natCast (htimestamps.symm ▸ hentry), entryAt_natCast (htimestamps.symm ▸ hexit)]
  exact ⟨_, rfl⟩

/-- A leg within the first bars has the trade there that it has in the whole table. -/
theorem tradeOf_take {count : Nat} (hleg : leg.entry ≤ leg.exit) (hexit : leg.exit < count) :
    tradeOf (prices.take count) asset leg = tradeOf prices asset leg := by
  have hentry : leg.entry < count := Nat.lt_of_le_of_lt hleg hexit
  simp only [tradeOf, closeTrade, Prices.take, entryAt_take hentry, entryAt_take hexit]

end Legs

/-! ## The trades of a list of legs -/

section Trades

variable {prices : Prices α} {asset : Option (Asset α)}

theorem tradesOf_cons_eq_ok {leg : Leg} {rest : List Leg} {trades : List (Trade α)} :
    tradesOf prices asset (leg :: rest) = .ok trades ↔
      ∃ trade others, tradeOf prices asset leg = .ok trade ∧
        tradesOf prices asset rest = .ok others ∧ trades = trade :: others := by
  rw [tradesOf]
  constructor
  · intro htrades
    obtain ⟨trade, htrade, hrest⟩ := Outcome.bind_eq_ok.1 htrades
    obtain ⟨others, hothers, hlast⟩ := Outcome.bind_eq_ok.1 hrest
    injection hlast with hlast
    exact ⟨trade, others, htrade, hothers, hlast.symm⟩
  · intro ⟨trade, others, htrade, hothers, htrades⟩
    rw [htrade, htrades]
    change (tradesOf prices asset rest >>= fun others => pure (trade :: others)) = _
    rw [hothers]
    rfl

theorem exists_leg_of_mem {legs : List Leg} {trades : List (Trade α)}
    (htrades : tradesOf prices asset legs = .ok trades) :
    ∀ trade ∈ trades, ∃ leg ∈ legs, tradeOf prices asset leg = .ok trade := by
  induction legs generalizing trades with
  | nil =>
      injection htrades with htrades
      rw [← htrades]
      exact nofun
  | cons leg rest ih =>
      obtain ⟨first, others, hfirst, hothers, rfl⟩ := tradesOf_cons_eq_ok.1 htrades
      intro trade htrade
      rcases List.mem_cons.1 htrade with rfl | htrade
      · exact ⟨leg, List.mem_cons_self, hfirst⟩
      · obtain ⟨other, hother, htrade⟩ := ih hothers trade htrade
        exact ⟨other, List.mem_cons_of_mem leg hother, htrade⟩

theorem tradesOf_append {first second : List Leg} {front back : List (Trade α)}
    (hfront : tradesOf prices asset first = .ok front)
    (hback : tradesOf prices asset second = .ok back) :
    tradesOf prices asset (first ++ second) = .ok (front ++ back) := by
  induction first generalizing front with
  | nil =>
      injection hfront with hfront
      rw [← hfront]
      exact hback
  | cons leg rest ih =>
      obtain ⟨trade, others, htrade, hothers, rfl⟩ := tradesOf_cons_eq_ok.1 hfront
      exact tradesOf_cons_eq_ok.2 ⟨trade, others ++ back, htrade, ih hothers, rfl⟩

theorem exists_tradesOf (asset : Option (Asset α))
    (htimestamps : prices.timestamp.length = prices.length)
    (hcloses : ∀ x ∈ prices.close, same x zero = false) {legs : List Leg}
    (hlegs : ∀ leg ∈ legs, leg.entry ≤ leg.exit ∧ leg.exit < prices.length) :
    ∃ trades, tradesOf prices asset legs = .ok trades := by
  induction legs with
  | nil => exact ⟨[], rfl⟩
  | cons leg rest ih =>
      obtain ⟨hentry, hexit⟩ := hlegs leg List.mem_cons_self
      obtain ⟨trade, htrade⟩ := exists_tradeOf asset htimestamps hcloses hentry hexit
      obtain ⟨others, hothers⟩ := ih fun other hother => hlegs other (List.mem_cons_of_mem _ hother)
      exact ⟨trade :: others, tradesOf_cons_eq_ok.2 ⟨trade, others, htrade, hothers, rfl⟩⟩

theorem tradesOf_take {count : Nat} {legs : List Leg}
    (hlegs : ∀ leg ∈ legs, leg.entry ≤ leg.exit ∧ leg.exit < count) :
    tradesOf (prices.take count) asset legs = tradesOf prices asset legs := by
  induction legs with
  | nil => rfl
  | cons leg rest ih =>
      obtain ⟨hentry, hexit⟩ := hlegs leg List.mem_cons_self
      rw [tradesOf, tradesOf, tradeOf_take hentry hexit,
        ih fun other hother => hlegs other (List.mem_cons_of_mem _ hother)]

/-- Leaving out the legs that end late leaves out the trades that end late. -/
theorem tradesOf_filter {legs : List Leg} {trades : List (Trade α)} (count : Nat)
    (htrades : tradesOf prices asset legs = .ok trades) :
    tradesOf prices asset (legs.filter fun leg => leg.exit < count) =
      .ok (trades.filter fun trade => trade.exit < (count : Int)) := by
  induction legs generalizing trades with
  | nil =>
      injection htrades with htrades
      rw [← htrades]
      rfl
  | cons leg rest ih =>
      obtain ⟨trade, others, htrade, hothers, rfl⟩ := tradesOf_cons_eq_ok.1 htrades
      have hexit := tradeOf_exit htrade
      by_cases hlt : leg.exit < count
      · have hlt' : trade.exit < (count : Int) := by omega
        simp only [List.filter_cons, hlt, hlt', decide_true, if_true]
        exact tradesOf_cons_eq_ok.2 ⟨trade, _, htrade, ih hothers, rfl⟩
      · have hlt' : ¬ trade.exit < (count : Int) := by omega
        simp only [List.filter_cons, hlt, hlt', decide_false, Bool.false_eq_true, if_false]
        exact ih hothers

theorem tradesOf_outline {legs : List Leg} {trades : List (Trade α)}
    (htrades : tradesOf prices asset legs = .ok trades) :
    trades.map tradeOutline = legs.map Leg.outline := by
  induction legs generalizing trades with
  | nil =>
      injection htrades with htrades
      rw [← htrades]
      rfl
  | cons leg rest ih =>
      obtain ⟨trade, others, htrade, hothers, rfl⟩ := tradesOf_cons_eq_ok.1 htrades
      rw [List.map_cons, List.map_cons, tradeOf_outline htrade, ih hothers]

/-- The trade of a forced close ends at the bar of that close. -/
theorem exit_of_forced {held : Option Position} {trades : List (Trade α)} {bar : Nat}
    (htrades : tradesOf prices asset (forced held bar) = .ok trades) :
    ∀ trade ∈ trades, trade.exit = bar := by
  intro trade htrade
  have hmem := List.mem_map_of_mem (f := tradeOutline) htrade
  rw [tradesOf_outline htrades] at hmem
  obtain ⟨leg, hleg, houtline⟩ := List.mem_map.1 hmem
  obtain ⟨position, _, rfl⟩ := Option.map_eq_some_iff.1 (Option.mem_toList.1 hleg)
  exact (congrArg (·.2.1) houtline).symm

/-- A simulation holds the trades of its legs and their equity. -/
theorem simulate_eq_ok {signals : List (SignalKind × Flags)} {fromFlat : Bool}
    {trades : List (Trade α)} {equity : Series α} :
    simulate prices signals asset fromFlat = .ok (trades, equity) ↔
      tradesOf prices asset (legs prices.length signals fromFlat) = .ok trades ∧
        equity = equityCurve prices.length trades := by
  rw [simulate, Outcome.bind_eq_ok]
  constructor
  · rintro ⟨found, hfound, hresult⟩
    injection hresult with hresult
    injection hresult with htrades hequity
    rw [← htrades]
    exact ⟨hfound, hequity.symm⟩
  · rintro ⟨htrades, rfl⟩
    exact ⟨trades, htrades, rfl⟩

end Trades

/-! ## Equity -/

/-- Only the trades that end at a bar count for its factor. -/
theorem factorAt_eq_filter (trades : List (Trade α)) (bar : Nat) :
    factorAt trades bar = factorAt (trades.filter fun trade => trade.exit = (bar : Int)) bar := by
  rw [factorAt, factorAt, List.foldl_filter]
  congr 1
  funext factor trade
  by_cases hexit : trade.exit = (bar : Int)
  · simp only [hexit, decide_true, if_true]
  · simp only [hexit, decide_false, if_false, Bool.false_eq_true]

theorem equityCurve_take {count bars : Nat} (trades : List (Trade α)) (hcount : count ≤ bars) :
    (equityCurve bars trades).take count = equityCurve count trades := by
  rw [equityCurve, equityCurve, ← List.map_take, ← Series.scan_take, ← List.map_take,
    List.take_range, Nat.min_eq_left hcount]

/-- Curves agree over the bars before which the trades end alike. -/
theorem equityCurve_congr {bars : Nat} {first second : List (Trade α)}
    (htrades : ∀ bar < bars, (first.filter fun trade => trade.exit = (bar : Int)) =
      second.filter fun trade => trade.exit = (bar : Int)) :
    equityCurve bars first = equityCurve bars second := by
  have hfactors : (List.range bars).map (factorAt first) =
      (List.range bars).map (factorAt second) := by
    apply List.map_congr_left
    intro bar hbar
    rw [factorAt_eq_filter first, factorAt_eq_filter second, htrades bar (List.mem_range.1 hbar)]
  rw [equityCurve, equityCurve, hfactors]

@[simp]
theorem length_equityCurve (bars : Nat) (trades : List (Trade α)) :
    (equityCurve bars trades).length = bars := by
  rw [equityCurve, List.length_map, Series.length_scan, List.length_map, List.length_range]

/-! ## Whole simulations -/

omit [Arith α] in
/-- A forced close at the end of a simulation counts for no earlier bar. -/
theorem filter_append_of_exit {kept last : List (Trade α)} {final bar : Nat}
    (hlast : ∀ trade ∈ last, trade.exit = (final : Int)) (hbar : bar < final) :
    (kept ++ last).filter (fun trade => trade.exit = (bar : Int)) =
      kept.filter fun trade => trade.exit = (bar : Int) := by
  have hnone : last.filter (fun trade => trade.exit = (bar : Int)) = [] := by
    apply List.filter_eq_nil_iff.2
    intro trade htrade hexit
    have hexit := of_decide_eq_true hexit
    rw [hlast trade htrade] at hexit
    omega
  rw [List.filter_append, hnone, List.append_nil]

/-- Trades from the last of the first bars on do not count for the equity before it. -/
theorem equityCurve_truncate {count bars : Nat} (kept : List (Trade α))
    {atEnd last : List (Trade α)} (hcount : count ≤ bars)
    (hatEnd : ∀ trade ∈ atEnd, trade.exit = ((bars - 1 : Nat) : Int))
    (hlast : ∀ trade ∈ last, trade.exit = ((count - 1 : Nat) : Int)) :
    (equityCurve bars (kept ++ atEnd)).take (count - 1) =
      (equityCurve count (kept.filter (fun trade => trade.exit < (count : Int)) ++ last)).take
        (count - 1) := by
  rw [equityCurve_take _ (by omega), equityCurve_take _ (by omega)]
  apply equityCurve_congr
  intro bar hbar
  rw [filter_append_of_exit hatEnd (by omega), filter_append_of_exit hlast hbar,
    List.filter_filter]
  apply List.filter_congr
  intro trade _
  by_cases hexit : trade.exit = (bar : Int)
  · have hlt : (bar : Int) < count := by omega
    simp only [hexit, hlt, decide_true, Bool.and_true]
  · simp only [hexit, decide_false, Bool.false_and]

/-- How a simulation over the first bars of a table compares with the whole simulation. -/
structure FirstBars (prices : Prices α) (signals : List (SignalKind × Flags))
    (asset : Option (Asset α)) (fromFlat : Bool) (count : Nat)
    (bySignal atEnd last : List (Trade α)) (whole part : Series α) : Prop where
  /-- The trades that signals close in the whole simulation. -/
  bySignal_eq :
    tradesOf prices asset (signalLegs prices.length signals fromFlat) = .ok bySignal
  /-- The trade of the position that is open after the last bar, if one is. -/
  atEnd_eq : tradesOf prices asset (forced
    (heldAfter prices.length signals fromFlat (prices.length - 1)) (prices.length - 1)) = .ok atEnd
  /-- The trade of the position that is open after the last of the first bars, if one is. -/
  last_eq : tradesOf prices asset (forced
    (heldAfter prices.length signals fromFlat (count - 1)) (count - 1)) = .ok last
  last_outline : last.map tradeOutline =
    (heldAfter prices.length signals fromFlat (count - 1)).toList.map fun position =>
      ((position.entry : Int), ((count - 1 : Nat) : Int), position.direction)
  whole_eq : simulate prices signals asset fromFlat = .ok (bySignal ++ atEnd, whole)
  part_eq : simulate (prices.take count) (truncate count signals) asset fromFlat =
    .ok (bySignal.filter (fun trade => trade.exit < (count : Int)) ++ last, part)
  equity_eq : ∀ bar < count - 1, ∃ x, whole[bar]? = some x ∧ part[bar]? = some x

/-- No simulation looks ahead.  Over the first bars, it gives the trades that signals close there in
the whole simulation, then the trade of the position that the whole simulation holds at the last of
these bars, and the equity before that bar is the same. -/
theorem simulation_does_not_look_ahead {prices : Prices α} {count : Nat}
    (signals : List (SignalKind × Flags)) (asset : Option (Asset α)) (fromFlat : Bool)
    (htimestamps : prices.timestamp.length = prices.length)
    (hcloses : ∀ x ∈ prices.close, same x zero = false)
    (hpositive : 1 ≤ count) (hcount : count ≤ prices.length) :
    ∃ (bySignal atEnd last : List (Trade α)) (whole part : Series α),
      FirstBars prices signals asset fromFlat count bySignal atEnd last whole part := by
  have hlength : (prices.take count).length = count := by
    change (prices.close.take count).length = count
    rw [List.length_take]
    exact Nat.min_eq_left hcount
  obtain ⟨bySignal, hbySignal⟩ := exists_tradesOf asset htimestamps hcloses fun leg hleg =>
    have hbounds := signalLegs_closedWithin fromFlat hleg
    ⟨hbounds.ordered, hbounds.lt_last⟩
  have hforced : ∀ bar < prices.length, ∃ trades, tradesOf prices asset
      (forced (heldAfter prices.length signals fromFlat bar) bar) = .ok trades := by
    intro bar hbar
    apply exists_tradesOf asset htimestamps hcloses
    intro leg hleg
    have hbounds := forced_closedWithin fromFlat hleg
    exact ⟨hbounds.ordered, Nat.lt_of_lt_of_le hbounds.lt_last hbar⟩
  obtain ⟨atEnd, hatEnd⟩ := hforced (prices.length - 1) (by omega)
  obtain ⟨last, hlast⟩ := hforced (count - 1) (by omega)
  -- Over the first bars the legs are those of `legs_truncate`, and they have the same trades.
  have hpart : tradesOf (prices.take count) asset (legs count (truncate count signals) fromFlat) =
      .ok (bySignal.filter (fun trade => trade.exit < (count : Int)) ++ last) := by
    rw [legs_truncate signals fromFlat hpositive hcount, tradesOf_take]
    · exact tradesOf_append (tradesOf_filter count hbySignal) hlast
    · intro leg hleg
      rcases List.mem_append.1 hleg with hleg | hleg
      · obtain ⟨hmem, hlt⟩ := List.mem_filter.1 hleg
        exact ⟨(signalLegs_closedWithin fromFlat hmem).ordered, of_decide_eq_true hlt⟩
      · have hbounds := forced_closedWithin fromFlat hleg
        have hlt := hbounds.lt_last
        exact ⟨hbounds.ordered, by omega⟩
  refine ⟨bySignal, atEnd, last, equityCurve prices.length (bySignal ++ atEnd),
    equityCurve count (bySignal.filter (fun trade => trade.exit < (count : Int)) ++ last),
    ⟨hbySignal, hatEnd, hlast, ?_, ?_, ?_, ?_⟩⟩
  · rw [tradesOf_outline hlast]
    cases heldAfter prices.length signals fromFlat (count - 1) <;> rfl
  · rw [simulate, legs_eq_append, tradesOf_append hbySignal hatEnd]
    rfl
  · rw [simulate, hlength, hpart]
    rfl
  · intro bar hbar
    have hequity := equityCurve_truncate bySignal hcount (exit_of_forced hatEnd)
      (exit_of_forced hlast)
    have hwhole : bar < (equityCurve prices.length (bySignal ++ atEnd)).length := by
      rw [length_equityCurve]
      omega
    refine ⟨_, List.getElem?_eq_getElem hwhole, ?_⟩
    rw [← List.getElem?_take_of_lt hbar, ← hequity, List.getElem?_take_of_lt hbar]
    exact List.getElem?_eq_getElem hwhole

/-- Four bars with rising prices. -/
def risingPrices : Prices Exact :=
  let column : Series Exact := [.finite 10, .finite 11, .finite 12, .finite 13]
  ⟨[0, 60000, 120000, 180000], column, column, column, column, column⟩

/-- Long from the second bar on, and short instead at the last one. -/
def reversal : List (SignalKind × Flags) :=
  [(.openLong, [false, true, true, false]), (.openShort, [false, false, false, true])]

theorem simulation_reversal :
    (∀ x ∈ risingPrices.close, same x zero = false) ∧
      ∃ bySignal atEnd last whole part,
        FirstBars risingPrices reversal none false 3 bySignal atEnd last whole part ∧
          bySignal.length = 1 ∧ atEnd.length = 1 ∧ last.length = 1 := by
  have hcloses : ∀ x ∈ risingPrices.close, same x zero = false := by decide +kernel
  obtain ⟨bySignal, atEnd, last, whole, part, hfirst⟩ :=
    simulation_does_not_look_ahead reversal none false rfl hcloses (by decide : 1 ≤ 3) (by decide)
  refine ⟨hcloses, bySignal, atEnd, last, whole, part, hfirst, ?_, ?_, ?_⟩
  · exact (List.length_map _).symm.trans (congrArg _ (tradesOf_outline hfirst.bySignal_eq))
  · exact (List.length_map _).symm.trans (congrArg _ (tradesOf_outline hfirst.atEnd_eq))
  · exact (List.length_map _).symm.trans (congrArg _ (tradesOf_outline hfirst.last_eq))

end Backtest.Simulation
