import Backtest.Prices
import Backtest.Simulation.Position

/-!
# Trades and equity

A leg becomes a trade at the closes of its two bars.  The equity curve starts at 100 and is
multiplied by the gain of each trade at the bar of its exit.
-/

namespace Backtest

/-- How the profit of a trade is counted in money. -/
inductive AssetKind where
  /-- Only the percentage counts. -/
  | percentage
  /-- Each point of the price is worth a fixed amount. -/
  | pointValue
  deriving DecidableEq

namespace AssetKind

def name : AssetKind → String
  | .percentage => "crypto"
  | .pointValue => "futures"

def all : List AssetKind := [.percentage, .pointValue]

def ofName? (name : String) : Option AssetKind := all.find? fun kind => kind.name == name

end AssetKind

structure Asset (α : Type) where
  kind : AssetKind
  pointValue : α

/-- A closed position with its prices and its profit. -/
structure Trade (α : Type) where
  entry : Int
  exit : Int
  entryTimestamp : Int
  exitTimestamp : Int
  entryPrice : α
  exitPrice : α
  direction : Direction
  /-- The profit in percent of the entry price. -/
  percent : α
  /-- The profit in points of the price. -/
  points : α
  /-- The profit in money. -/
  dollars : α

namespace Simulation

variable {α : Type} [Arith α]

/-- The entry of a column at an index, which counts from the end if it is negative. -/
def entryAt {β : Type} (column : List β) (index : Int) : Outcome β :=
  let place := if index < 0 then index + column.length else index
  if place < 0 then .error .noSuchBar
  else match column[place.toNat]? with
    | some x => .ok x
    | none => .error .noSuchBar

/-- The points that a direction gains between two prices. -/
def pointsOf (direction : Direction) (entryPrice exitPrice : α) : α :=
  match direction with
  | .long => exitPrice - entryPrice
  | .short => entryPrice - exitPrice

def dollarsOf (asset : Option (Asset α)) (points : α) : α :=
  match asset with
  | some ⟨.pointValue, value⟩ => points * value
  | _ => Arith.zero

/-- Closes a position at the close of a bar.  A position that was opened at a price of zero has no
percentage. -/
def closeTrade (prices : Prices α) (asset : Option (Asset α)) (direction : Direction) (entry : Int)
    (entryPrice : α) (exit : Int) : Outcome (Trade α) := do
  let exitPrice ← entryAt prices.close exit
  let points := pointsOf direction entryPrice exitPrice
  if Arith.same entryPrice Arith.zero then throw .divisionByZero
  let percent := points / entryPrice * Arith.ofNat 100
  let entryTimestamp ← entryAt prices.timestamp entry
  let exitTimestamp ← entryAt prices.timestamp exit
  pure ⟨entry, exit, entryTimestamp, exitTimestamp, entryPrice, exitPrice, direction, percent,
    points, dollarsOf asset points⟩

/-- The trade of a leg. -/
def tradeOf (prices : Prices α) (asset : Option (Asset α)) (leg : Leg) : Outcome (Trade α) := do
  let entryPrice ← entryAt prices.close leg.entry
  closeTrade prices asset leg.direction leg.entry entryPrice leg.exit

def tradesOf (prices : Prices α) (asset : Option (Asset α)) : List Leg → Outcome (List (Trade α))
  | [] => .ok []
  | leg :: rest => do
      let trade ← tradeOf prices asset leg
      pure (trade :: (← tradesOf prices asset rest))

/-- What the trades that end at a bar multiply the equity by. -/
def factorAt (trades : List (Trade α)) (bar : Nat) : α :=
  trades.foldl (fun factor trade =>
    if trade.exit = (bar : Int) then factor * (Arith.one + trade.percent / Arith.ofNat 100)
    else factor) Arith.one

/-- The equity at each bar. -/
def equityCurve (bars : Nat) (trades : List (Trade α)) : Series α :=
  let factors := (List.range bars).map (factorAt trades)
  (Series.scan (fun total factor => (total * factor, total * factor)) Arith.one factors).map
    (Arith.ofNat 100 * ·)

/-- Runs signals over the bars: the closed trades and the equity curve. -/
def simulate (prices : Prices α) (signals : List (SignalKind × Flags)) (asset : Option (Asset α))
    (fromFlat : Bool) : Outcome (List (Trade α) × Series α) := do
  let trades ← tradesOf prices asset (legs prices.length signals fromFlat)
  pure (trades, equityCurve prices.length trades)

end Simulation

end Backtest
