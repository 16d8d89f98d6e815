import Backtest.Arith

/-!
# Random numbers

A small generator with 64 bits of state.  Each step multiplies the state by a constant and adds
another one, modulo `2 ^ 64`; the upper 31 bits of the new state are the draw.
-/

namespace Backtest.Random

abbrev State := Nat

def stateCount : Nat := Nat.pow 2 64

/-- The state that a seed starts from. -/
def start (seed : Int) : State := (seed % (stateCount : Int)).toNat

/-- The next draw and the state after it. -/
def draw (state : State) : Nat × State :=
  let next := (state * 6364136223846793005 + 1442695040888963407) % stateCount
  (next / Nat.pow 2 33, next)

variable {α : Type} [Arith α]

/-- A draw from the numbers of at least zero and below one. -/
def unit (state : State) : α × State :=
  let (index, next) := draw state
  (Arith.ofNat index / Arith.ofNat (Nat.pow 2 31), next)

/-- A count of draws from the unit interval, each of them changed by a function. -/
def series (change : α → α) : Nat → State → List α × State
  | 0, state => ([], state)
  | count + 1, state =>
      let (x, next) := unit state
      let (rest, last) := series change count next
      (change x :: rest, last)

end Backtest.Random
