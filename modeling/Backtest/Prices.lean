import Backtest.Fault
import Backtest.Series.Basic

/-!
# Bars and price tables

A price table holds the columns of a list of bars.  `Prices.validate` is the check that every run
makes first: there is a bar, timestamps increase strictly, and each price is finite.
-/

namespace Backtest

/-- One bar; the timestamp counts milliseconds from 1970-01-01 UTC. -/
structure Bar (α : Type) where
  timestamp : Int
  opening : α
  high : α
  low : α
  close : α
  volume : α

/-- A price table, column by column, the oldest bar first. -/
structure Prices (α : Type) where
  timestamp : List Int
  opening : Series α
  high : Series α
  low : Series α
  close : Series α
  volume : Series α

/-- The integers that 64 bits hold. -/
def fitsWord (n : Int) : Bool := -(Nat.pow 2 63 : Int) ≤ n && n < (Nat.pow 2 63 : Int)

/-- The difference of two 64-bit integers, which wraps around. -/
def wordDifference (later earlier : Int) : Int := (later - earlier).bmod (Nat.pow 2 64)

namespace Prices

variable {α : Type}

/-- The number of bars. -/
def length (prices : Prices α) : Nat := prices.close.length

def ofBars (bars : List (Bar α)) : Outcome (Prices α) :=
  if bars.all fun bar => fitsWord bar.timestamp then
    .ok ⟨bars.map (·.timestamp), bars.map (·.opening), bars.map (·.high), bars.map (·.low),
      bars.map (·.close), bars.map (·.volume)⟩
  else .error .timestampTooLarge

/-- The first bars of a table. -/
def take (count : Nat) (prices : Prices α) : Prices α :=
  ⟨prices.timestamp.take count, prices.opening.take count, prices.high.take count,
    prices.low.take count, prices.close.take count, prices.volume.take count⟩

/-- The first bar whose timestamp is not above the one before it, counting from `bar`. -/
def firstDisorder (bar : Nat) : List Int → Option Nat
  | earlier :: later :: rest =>
      if wordDifference later earlier ≤ 0 then some bar
      else firstDisorder (bar + 1) (later :: rest)
  | _ => none

variable [Arith α]

/-- The first column with a price that is not finite, and the bar of that price. -/
def firstUndefined (prices : Prices α) : Option (String × Nat) :=
  [("open", prices.opening), ("high", prices.high), ("low", prices.low),
    ("close", prices.close)].findSome? fun column =>
      (column.2.findIdx? fun x => !Arith.isFinite x).map (column.1, ·)

/-- A table that a run accepts, or the first flaw. -/
def validate (prices : Prices α) : Outcome (Prices α) :=
  if prices.length = 0 then .error .emptyBars
  else match firstDisorder 1 prices.timestamp with
    | some bar => .error (.timestampOrder bar)
    | none => match prices.firstUndefined with
      | some (column, bar) => .error (.undefinedPrice column bar)
      | none => .ok prices

/-- The table of a list of bars, checked. -/
def ofValidBars (bars : List (Bar α)) : Outcome (Prices α) := do
  let prices ← ofBars bars
  prices.validate

end Prices

end Backtest
