import Backtest.Input.Param
import Backtest.Search.Bound

/-!
# Ranges

A range gives a parameter the values from a least to a greatest one in equal steps.  `expand` lists
them, and `gridSize` tells how many combinations some ranges have without listing them.  A range
takes any scalars; only numbers can be stepped through, and one of its checks may fail before.
-/

namespace Backtest

structure Range (α : Type) where
  name : String
  least : Scalar α
  greatest : Scalar α
  step : Scalar α
  /-- `int` gives whole values as integers. -/
  kind : String
  title : String
  enabled : Bool

namespace Search

open Arith

variable {α : Type} [Arith α]

/-- What a value may exceed the greatest one by, and what a count of steps may fall short of a whole
number by. -/
def tolerance : α := ofDecimal false 1 (-10)

/-- The step of a range; one that is not positive counts as one. -/
def stepOf (range : Range α) : Outcome (Number α) := do
  let step ← Number.ofScalar range.step
  pure (if (Number.int 0 : Number α).below step then step else .real one)

/-- Values in equal steps from the least one on, as long as they do not exceed the greatest one. -/
structure Progression (α : Type) where
  least : Number α
  greatest : Number α
  step : Number α
  /-- Whole values are integers. -/
  whole : Bool

namespace Progression

/-- The value after a count of steps, before rounding. -/
def valueAfter (values : Progression α) (count : Nat) : Outcome (Number α) := do
  values.least.add (← (Number.int count : Number α).mul values.step)

/-- Tests whether a value is beyond the greatest one. -/
def isBeyond (values : Progression α) (value : Number α) : Outcome Bool := do
  let limit ← values.greatest.add (.real tolerance)
  pure (limit.below value)

/-- A value of a progression, rounded to eight places. -/
def listed (values : Progression α) (value : Number α) : Outcome (Scalar α) := do
  let rounded := value.roundTo 8
  if values.whole then
    let x ← rounded.toReal
    match rounded, isWhole x with
    | .real y, true => pure (.int (← Number.floorOf y))
    | _, _ => pure rounded.toScalar
  else pure rounded.toScalar

/-- The values from a count of steps on, of which there are fewer than `fuel`. -/
def valuesFrom (values : Progression α) : Nat → Nat → Outcome (List (Scalar α))
  | 0, _ => .error .neverEnds
  | fuel + 1, count => do
      let value ← values.valueAfter count
      if ← values.isBeyond value then pure []
      else
        let first ← values.listed value
        pure (first :: (← valuesFrom values fuel (count + 1)))

/-- The whole number of steps from the least value to the limit. -/
def stepsToLimit (values : Progression α) : Outcome Int := do
  let limit ← values.greatest.add (.real tolerance)
  let span ← limit.sub values.least
  Number.floorOf (← span.div values.step)

/-- A count that no progression with an end reaches.  It is beyond the steps to the limit as far as
these can be computed.  From `2 ^ 1024` steps on, a product with a number is beyond all numbers, and
integers run from the least to the greatest value. -/
def stepBound (values : Progression α) : Nat :=
  let whole : Number α → Nat
    | .int n => n.natAbs
    | .real x => ((floor? x).getD 0).natAbs
  let steps := (values.stepsToLimit.toOption.getD 0).toNat
  Nat.pow 2 1024 + whole values.least + whole values.greatest + steps + 2

/-- All values of a progression. -/
def toList (values : Progression α) : Outcome (List (Scalar α)) :=
  values.valuesFrom values.stepBound 0

end Progression

/-- The values that a range steps through. -/
def progressionOf (range : Range α) : Outcome (Progression α) := do
  let step ← stepOf range
  let least ← Number.ofScalar range.least
  let greatest ← Number.ofScalar range.greatest
  pure ⟨least, greatest, step, range.kind = "int"⟩

/-- The values of a range from the least to the greatest one. -/
def expand (range : Range α) : Outcome (List (Scalar α)) := do
  if ← range.least.isAbove range.greatest then
    throw (.invertedRange range.name range.least.toText range.greatest.toText)
  (← progressionOf range).toList

/-- The number of values of a range. -/
def countOf (range : Range α) : Outcome Nat := do
  let greatest ← Number.ofScalar range.greatest
  let span ← greatest.sub (← Number.ofScalar range.least)
  let steps ← span.div (← stepOf range)
  let whole ← Number.floorOf (steps + tolerance)
  pure (whole + 1).toNat

/-- The number of combinations of the enabled ranges. -/
def gridSize : List (Range α) → Outcome Nat
  | [] => .ok 1
  | range :: rest => do
      let count ← if range.enabled then countOf range else pure 1
      pure (count * (← gridSize rest))

/-- The nearest integer; a half goes up. -/
def roundHalfUp (x : α) : Outcome Int := Number.floorOf (x + ofDecimal false 5 (-1))

/-- An integer as a number. -/
def realOfInt (n : Int) : Outcome (Scalar α) := do pure (.real (← Scalar.ofInt n))

/-- The range to search for a numeric parameter: declared bounds and steps count, and missing ones
come from the default. -/
def ofParam (param : Input.Param α) : Outcome (Range α) := do
  let default : α ← param.default.toReal
  let step : α := param.step.getD
    (if param.kind = .float then ofDecimal false 5 (-1) else one)
  let least ← match param.least with
    | some x => pure (.real x)
    | none => do realOfInt (max 1 (← roundHalfUp (default * ofDecimal false 3 (-1))))
  let greatest ← match param.greatest with
    | some x => pure (.real x)
    | none => do realOfInt (← roundHalfUp (default * ofNat 3))
  pure ⟨param.name, least, greatest, .real step, param.kind.name, param.title, true⟩

/-- The ranges to search for the numeric parameters. -/
def ofParams (params : List (Input.Param α)) : Outcome (List (Range α)) :=
  (params.filter fun param => param.kind.isNumeric).mapM ofParam

end Search

end Backtest
