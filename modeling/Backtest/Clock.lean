import Backtest.Number

/-!
# Recorded clocks

A clock given by its readings.  Each reading takes the next one, and the last one repeats.
-/

namespace Backtest.Clock

variable {α : Type} [Arith α]

/-- The readings that are still to come, in seconds. -/
abbrev Readings (α : Type) := List α

/-- Takes one reading. -/
def read : StateM (Readings α) α := fun readings =>
  match readings with
  | [] => (Arith.zero, [])
  | [last] => (last, [last])
  | next :: rest => (next, rest)

/-- Readings given in milliseconds. -/
def ofMillis (millis : List (Number α)) : Readings α :=
  millis.map fun reading => (reading.div (.int 1000)).toOption.getD Arith.infinity

end Backtest.Clock
