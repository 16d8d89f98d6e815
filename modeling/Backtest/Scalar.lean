import Backtest.Decimal.Reading
import Backtest.Fault
import Backtest.Record

/-!
# Scalars

Parameters, range bounds and options are scalars: integers of any size, numbers, truth values,
texts, nothing, or a list.  `Scalar.toReal` says which of them stand for a number, and
`Scalar.period?` which of them stand for the length of a window.
-/

namespace Backtest

open Text

inductive Scalar (α : Type) where
  | int (value : Int)
  | real (value : α)
  | flag (value : Bool)
  | text (value : String)
  | missing
  | list (items : List (Scalar α))
  deriving Inhabited

abbrev Params (α : Type) := Record (Scalar α)

namespace Scalar

variable {α : Type} [Arith α]

/-- The number nearest to an integer; beyond the finite numbers there is none. -/
def ofInt (value : Int) : Outcome α :=
  match Arith.ofInt? value with
  | some x => .ok x
  | none => .error .integerTooLarge

/-- The number that a scalar stands for.  A truth value counts as one or zero, and a text is read in
the free grammar. -/
def toReal : Scalar α → Outcome α
  | .int value => ofInt value
  | .real value => .ok value
  | .flag value => .ok (if value then Arith.one else Arith.zero)
  | .text value => match Decimal.number? value.toList with
    | some x => .ok x
    | none => .error (.notANumber value)
  | .missing | .list _ => .error .wrongType

/-- The number that a scalar stands for, if it stands for one.  An integer beyond the finite numbers
is still a fault. -/
def toReal? (value : Scalar α) : Outcome (Option α) :=
  match value.toReal with
  | .ok x => .ok (some x)
  | .error fault => if fault.kind = .overflow then .error fault else .ok none

/-- A window length of at least one: the number rounded to the nearest integer, halves upwards. -/
def windowLength (x : α) : Option Nat :=
  if Arith.isNaN x || !Arith.isFinite x then none
  else match Arith.floor? (x + Arith.ofDecimal false 5 (-1)) with
    | none => none
    | some n => some (max 1 n).toNat

/-- The window length that a scalar stands for, if it stands for a finite number. -/
def period? (value : Scalar α) : Outcome (Option Nat) :=
  match value.toReal? with
  | .ok (some x) => .ok (windowLength x)
  | .ok none => .ok none
  | .error fault => .error fault

/-- The window length that a scalar stands for, or a default. -/
def period (value : Scalar α) (default : Nat) : Outcome Nat :=
  match value.period? with
  | .ok length => .ok (length.getD default)
  | .error fault => .error fault

mutual

/-- A scalar as an item of a list is shown: a text stands in quotes. -/
def literal : Scalar α → String
  | .int value => toString value
  | .real value => Arith.text value
  | .flag value => if value then "True" else "False"
  | .text value => quoted value
  | .missing => "None"
  | .list items => "[" ++ join ", " (literals items) ++ "]"

def literals : List (Scalar α) → List String
  | [] => []
  | item :: rest => literal item :: literals rest

end

/-- The text of a scalar on its own. -/
def toText : Scalar α → String
  | .text value => value
  | value => value.literal

end Scalar

end Backtest
