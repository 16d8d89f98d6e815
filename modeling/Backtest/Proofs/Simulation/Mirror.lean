import Backtest.Proofs.Decimal.Opposite
import Backtest.Proofs.Simulation.Truncation

/-!
# Long and short

The simulator does not prefer a direction.  Signals for the other direction open and close the
other positions at the same bars: each step of the simulator commutes with exchanging the two
(`onSignal_mirror`), and so does a whole simulation (`legs_mirror`).

The trades of the two simulations have the same bars, timestamps and prices, and their profits are
opposite numbers (`mirrored_signals_mirror_trades`).  Only here the arithmetic matters; it has to
treat both signs alike.
-/

namespace Backtest

open Arith

/-- The signal that asks the same for the other direction. -/
def SignalKind.mirror : SignalKind → SignalKind
  | .openLong => .openShort
  | .openShort => .openLong
  | .closeLong => .closeShort
  | .closeShort => .closeLong
  | .closeAny => .closeAny

/-- Two trades at the same bars and prices in opposite directions, with opposite profits. -/
structure Trade.Mirrors {α : Type} [Arith α] (trade other : Trade α) : Prop where
  entry_eq : other.entry = trade.entry
  exit_eq : other.exit = trade.exit
  entryTimestamp_eq : other.entryTimestamp = trade.entryTimestamp
  exitTimestamp_eq : other.exitTimestamp = trade.exitTimestamp
  entryPrice_eq : other.entryPrice = trade.entryPrice
  exitPrice_eq : other.exitPrice = trade.exitPrice
  direction_eq : other.direction = trade.direction.opposite
  points_opposite : Opposite trade.points other.points
  percent_opposite : Opposite trade.percent other.percent
  dollars_opposite : Opposite trade.dollars other.dollars

namespace Simulation

def Position.mirror (position : Position) : Position :=
  { position with direction := position.direction.opposite }

def Leg.mirror (leg : Leg) : Leg := { leg with direction := leg.direction.opposite }

/-- The same signals for the other direction. -/
def mirrorSignals (signals : List (SignalKind × Flags)) : List (SignalKind × Flags) :=
  signals.map fun signal => (signal.1.mirror, signal.2)

/-! ## Legs -/

section Legs

variable (fromFlat settled : Bool) (bar : Nat) (held : Option Position)

theorem closeAt_mirror : (held.map Position.mirror).map (·.closeAt bar) =
    (held.map (·.closeAt bar)).map Leg.mirror := by
  cases held <;> rfl

theorem onSignal_mirror (kind : SignalKind) :
    onSignal settled bar (held.map Position.mirror) kind.mirror =
      ((onSignal settled bar held kind).1.map Position.mirror,
        (onSignal settled bar held kind).2.map Leg.mirror) := by
  cases settled <;> rcases held with _ | ⟨_ | _, entry⟩ <;> cases kind <;> rfl

theorem onSignals_mirror (kinds : List SignalKind) :
    onSignals settled bar (held.map Position.mirror) (kinds.map SignalKind.mirror) =
      ((onSignals settled bar held kinds).1.map Position.mirror,
        (onSignals settled bar held kinds).2.map Leg.mirror) := by
  induction kinds generalizing held with
  | nil => rfl
  | cons kind rest ih =>
      simp only [List.map_cons, onSignals, onSignal_mirror, ih, List.map_append,
        Option.toList_map]

theorem onBar_mirror (kinds : List SignalKind) :
    onBar fromFlat bar (held.map Position.mirror) (kinds.map SignalKind.mirror) =
      ((onBar fromFlat bar held kinds).1.map Position.mirror,
        (onBar fromFlat bar held kinds).2.map Leg.mirror) := by
  rw [onBar, Option.isSome_map, onSignals_mirror, onBar]

theorem legsFrom_mirror (stretch : List (List SignalKind)) :
    legsFrom fromFlat bar (held.map Position.mirror) (stretch.map (·.map SignalKind.mirror)) =
      (legsFrom fromFlat bar held stretch).map Leg.mirror := by
  induction stretch generalizing bar held with
  | nil => rw [List.map_nil, legsFrom, legsFrom, closeAt_mirror, Option.toList_map]
  | cons kinds rest ih => simp only [List.map_cons, legsFrom, onBar_mirror, ih, List.map_append]

end Legs

theorem activeAt_mirror (signals : List (SignalKind × Flags)) (bar : Nat) :
    activeAt (mirrorSignals signals) bar = (activeAt signals bar).map SignalKind.mirror := by
  rw [activeAt, activeAt, mirrorSignals, List.filterMap_map, List.map_filterMap]
  congr 1
  funext signal
  simp only [Function.comp_apply, apply_ite (Option.map SignalKind.mirror), Option.map_some,
    Option.map_none]

/-- Signals for the other direction have the same legs in the other direction. -/
theorem legs_mirror (bars : Nat) (signals : List (SignalKind × Flags)) (fromFlat : Bool) :
    legs bars (mirrorSignals signals) fromFlat = (legs bars signals fromFlat).map Leg.mirror := by
  have htape : tape bars (mirrorSignals signals) =
      (tape bars signals).map (·.map SignalKind.mirror) := by
    rw [tape, tape, List.map_map]
    congr 1
    funext bar
    exact activeAt_mirror signals bar
  rw [legs, htape, ← List.map_drop, legs]
  exact legsFrom_mirror fromFlat 1 none _

/-! ## Trades -/

section Trades

variable {α : Type} [Arith α] (hsymmetric : SignSymmetric α)
include hsymmetric

theorem pointsOf_opposite (direction : Direction) (entryPrice exitPrice : α) :
    Opposite (pointsOf direction entryPrice exitPrice)
      (pointsOf direction.opposite entryPrice exitPrice) := by
  cases direction with
  | long => exact hsymmetric.sub_opposite exitPrice entryPrice
  | short => exact hsymmetric.sub_opposite entryPrice exitPrice

theorem dollarsOf_opposite (asset : Option (Asset α)) {points others : α}
    (hpoints : Opposite points others) :
    Opposite (dollarsOf asset points) (dollarsOf asset others) := by
  match asset with
  | none => exact hsymmetric.zero_opposite
  | some ⟨.percentage, _⟩ => exact hsymmetric.zero_opposite
  | some ⟨.pointValue, value⟩ => exact hsymmetric.mul_opposite _ _ value hpoints

variable (prices : Prices α) (asset : Option (Asset α))

theorem tradeOf_mirror (leg : Leg) :
    Outcome.Alike Trade.Mirrors (tradeOf prices asset leg) (tradeOf prices asset leg.mirror) := by
  apply Outcome.alike_bind_eq rfl
  intro entryPrice
  apply Outcome.alike_bind_eq rfl
  intro exitPrice
  have hpoints := pointsOf_opposite hsymmetric leg.direction entryPrice exitPrice
  dsimp only
  split
  · exact .error _
  · apply Outcome.alike_bind_eq rfl
    intro entryTimestamp
    apply Outcome.alike_bind_eq rfl
    intro exitTimestamp
    exact .ok ⟨rfl, rfl, rfl, rfl, rfl, rfl, rfl, hpoints,
      hsymmetric.mul_opposite _ _ _ (hsymmetric.div_opposite _ _ _ hpoints),
      dollarsOf_opposite hsymmetric asset hpoints⟩

theorem tradesOf_mirror (legs : List Leg) :
    Outcome.Alike (List.Forall₂ Trade.Mirrors) (tradesOf prices asset legs)
      (tradesOf prices asset (legs.map Leg.mirror)) := by
  induction legs with
  | nil => exact .ok .nil
  | cons leg rest ih =>
      apply Outcome.alike_bind (tradeOf_mirror hsymmetric prices asset leg)
      intro trade other htrade
      apply Outcome.alike_bind ih
      intro trades others htrades
      exact .ok (.cons htrade htrades)

end Trades

/-- Signals for the other direction have the same number of trades, at the same bars, timestamps and
prices and in the same order, each one in the other direction and with the opposite profit. -/
theorem mirrored_signals_mirror_trades {α : Type} [Arith α] (hsymmetric : SignSymmetric α)
    {prices : Prices α} (signals : List (SignalKind × Flags)) (asset : Option (Asset α))
    (fromFlat : Bool) (htimestamps : prices.timestamp.length = prices.length)
    (hcloses : ∀ x ∈ prices.close, same x zero = false) :
    ∃ trades others, List.Forall₂ Trade.Mirrors trades others ∧
      simulate prices signals asset fromFlat =
        .ok (trades, equityCurve prices.length trades) ∧
      simulate prices (mirrorSignals signals) asset fromFlat =
        .ok (others, equityCurve prices.length others) := by
  obtain ⟨trades, htrades⟩ := exists_tradesOf asset htimestamps hcloses fun leg =>
    legs_bounds fromFlat
  obtain ⟨others, hothers, hmirrors⟩ :=
    (tradesOf_mirror hsymmetric prices asset _).exists_ok htrades
  rw [← legs_mirror] at hothers
  exact ⟨trades, others, hmirrors, simulate_eq_ok.2 ⟨htrades, rfl⟩,
    simulate_eq_ok.2 ⟨hothers, rfl⟩⟩

/-- Four bars of doubles, of which the third one closes highest. -/
def peakPrices : Prices Float :=
  let column : Series Float := [10.5, 11.25, 12.1, 11.7]
  ⟨[0, 60000, 120000, 180000], column, column, column, column, column⟩

/-- Long at the second bar, short instead at the third one, and nothing else. -/
def peakSignals : List (SignalKind × Flags) :=
  [(.openLong, [false, true, false, false]), (.openShort, [false, false, true, false])]

theorem mirrored_signals_mirror_trades_peak :
    SignSymmetric Float ∧ (∀ x ∈ peakPrices.close, same x zero = false) ∧
      ∃ trades others, List.Forall₂ Trade.Mirrors trades others ∧
        simulate peakPrices peakSignals (some ⟨.pointValue, 50.0⟩) false =
          .ok (trades, equityCurve 4 trades) ∧
        simulate peakPrices (mirrorSignals peakSignals) (some ⟨.pointValue, 50.0⟩) false =
          .ok (others, equityCurve 4 others) ∧
        trades.map tradeOutline = [(1, 2, .long), (2, 3, .short)] := by
  have hcloses : ∀ x ∈ peakPrices.close, same x zero = false := by decide +kernel
  obtain ⟨trades, others, hmirrors, htrades, hothers⟩ :=
    mirrored_signals_mirror_trades Double.symmetric peakSignals (some ⟨.pointValue, 50.0⟩) false
      rfl hcloses
  exact ⟨Double.symmetric, hcloses, trades, others, hmirrors, htrades, hothers,
    tradesOf_outline (simulate_eq_ok.1 htrades).1⟩

end Simulation

end Backtest
