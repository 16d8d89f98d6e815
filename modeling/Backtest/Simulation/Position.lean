import Backtest.Script.Signal
import Backtest.Series.Basic

/-!
# Positions

The simulator holds at most one position, long or short.  At each bar from the second one on it
takes the signals that are active there in their order; a later one may undo what an earlier one
did.  Opening against an open position closes it first, and a position that is still open after the
last bar is closed there.  Each closed position leaves one `Leg`.
-/

namespace Backtest

inductive Direction where
  | long
  | short
  deriving DecidableEq

namespace Direction

def name : Direction → String
  | .long => "long"
  | .short => "short"

def ofName? (name : String) : Option Direction :=
  [Direction.long, Direction.short].find? fun direction => direction.name == name

def opposite : Direction → Direction
  | .long => .short
  | .short => .long

end Direction

namespace SignalKind

/-- The direction of the position that a signal opens. -/
def opens? : SignalKind → Option Direction
  | .openLong => some .long
  | .openShort => some .short
  | _ => none

/-- A signal closes a position of the given direction without opening another one. -/
def closes : SignalKind → Direction → Bool
  | .closeLong, .long => true
  | .closeShort, .short => true
  | .closeAny, _ => true
  | _, _ => false

end SignalKind

namespace Simulation

/-- An open position: its direction and the bar at which it was opened. -/
structure Position where
  direction : Direction
  entry : Nat
  deriving DecidableEq

/-- A closed position. -/
structure Leg where
  entry : Nat
  exit : Nat
  direction : Direction
  deriving DecidableEq

def Position.closeAt (position : Position) (bar : Nat) : Leg :=
  ⟨position.entry, bar, position.direction⟩

/-- What one signal does at a bar: the position after it and the leg that it closes, if any.  A
`settled` bar admits no opening. -/
def onSignal (settled : Bool) (bar : Nat) (held : Option Position) (kind : SignalKind) :
    Option Position × Option Leg :=
  match kind.opens? with
  | some direction =>
      if held.map (·.direction) = some direction ∨ settled = true then (held, none)
      else (some ⟨direction, bar⟩, held.map (·.closeAt bar))
  | none => match held with
    | some position =>
        if kind.closes position.direction then (none, some (position.closeAt bar)) else (held, none)
    | none => (none, none)

/-- What the signals of a bar do, one after the other. -/
def onSignals (settled : Bool) (bar : Nat) : Option Position → List SignalKind →
    Option Position × List Leg
  | held, [] => (held, [])
  | held, kind :: rest =>
      let first := onSignal settled bar held kind
      let others := onSignals settled bar first.1 rest
      (others.1, first.2.toList ++ others.2)

/-- What a bar does.  With `fromFlat`, positions open only at bars that start without one. -/
def onBar (fromFlat : Bool) (bar : Nat) (held : Option Position) (kinds : List SignalKind) :
    Option Position × List Leg :=
  onSignals (fromFlat && held.isSome) bar held kinds

/-- The legs from a bar on, given the signals of that bar and the later ones. -/
def legsFrom (fromFlat : Bool) (bar : Nat) (held : Option Position) :
    List (List SignalKind) → List Leg
  | [] => (held.map (·.closeAt (bar - 1))).toList
  | kinds :: rest =>
      let result := onBar fromFlat bar held kinds
      result.2 ++ legsFrom fromFlat (bar + 1) result.1 rest

/-- The signals that are active at a bar, in their order. -/
def activeAt (signals : List (SignalKind × Flags)) (bar : Nat) : List SignalKind :=
  signals.filterMap fun signal => if signal.2[bar]?.getD false then some signal.1 else none

/-- The active signals of all bars. -/
def tape (bars : Nat) (signals : List (SignalKind × Flags)) : List (List SignalKind) :=
  (List.range bars).map (activeAt signals)

/-- The legs of a simulation in the order in which they are closed.  No signal acts at the first
bar. -/
def legs (bars : Nat) (signals : List (SignalKind × Flags)) (fromFlat : Bool) : List Leg :=
  legsFrom fromFlat 1 none ((tape bars signals).drop 1)

end Simulation

end Backtest
