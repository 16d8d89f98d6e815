import Backtest.Prices
import Backtest.Scalar

/-!
# Values and environments

What an expression stands for: a series of numbers or truth values, or a single number, truth value
or text.  Single values stretch over all bars where a series is needed.  An environment gives names
their values; a name can also be bound to nothing, and then reads like an unbound one.
-/

namespace Backtest

inductive Value (α : Type) where
  | series (values : Series α)
  | flags (values : Flags)
  | number (value : α)
  | flag (value : Bool)
  | text (value : String)
  | list (items : List (Scalar α))

namespace Value

variable {α : Type} [Arith α]

/-- The numeric series that a value stands for over a count of bars.  Truth values alone and texts
stand for none. -/
def numeric (bars : Nat) : Value α → Outcome (Option (Series α))
  | .series values => .ok (some values)
  | .flags values => .ok (some (Series.ofFlags values))
  | .number value => .ok (some (List.replicate bars value))
  | .flag _ | .text _ => .ok none
  | .list _ => .error .wrongType

/-- A number counts as true unless it is zero or undefined. -/
def holds (value : α) : Bool := !Arith.isNaN value && !Arith.same value Arith.zero

/-- The truth series that a value stands for; texts stand for none. -/
def truth (bars : Nat) : Value α → Option Flags
  | .series values => some (values.map holds)
  | .flags values => some values
  | .number value => some (List.replicate bars (holds value))
  | .flag value => some (List.replicate bars value)
  | .text _ | .list _ => none

/-- The truth series of a truth value or of a series of them, and of nothing else. -/
def onlyTruth (bars : Nat) : Value α → Option Flags
  | .flags values => some values
  | .flag value => some (List.replicate bars value)
  | _ => none

/-- The text that an equality compares where a side is not numeric; a whole number has no point. -/
def comparedText : Value α → Option String
  | .series _ | .flags _ => none
  | .number value => some (match Arith.isWhole value, Arith.floor? value with
    | true, some n => toString n
    | _, _ => Arith.text value)
  | .flag value => some (if value then "true" else "false")
  | .text value => some value
  | .list items => some (Scalar.literal (.list items))

/-- The value that a parameter is bound to. -/
def ofScalar : Scalar α → Outcome (Option (Value α))
  | .int value => do
      let x : α ← Scalar.ofInt value
      pure (some (.number x))
  | .real value => .ok (some (.number value))
  | .flag value => .ok (some (.flag value))
  | .text value => .ok (some (.text value))
  | .missing => .ok none
  | .list items => .ok (some (.list items))

end Value

/-- The values of names; `none` stands for a name that is bound to nothing. -/
abbrev Environment (α : Type) := Record (Option (Value α))

namespace Environment

variable {α : Type} [Arith α]

def value? (env : Environment α) (name : String) : Option (Value α) :=
  (Record.get? env name).join

def bind (env : Environment α) (name : String) (value : Value α) : Environment α :=
  Record.put env name (some value)

/-- The price series, their averages per bar, and the two truth values. -/
def ofPrices (prices : Prices α) : Environment α :=
  let mean (count : Nat) (total : Series α) : Option (Value α) :=
    some (.series (total.map (· / Arith.ofNat count)))
  let highLow := List.zipWith (· + ·) prices.high prices.low
  let fourPrices := List.zipWith (· + ·)
    (List.zipWith (· + ·) (List.zipWith (· + ·) prices.opening prices.high) prices.low) prices.close
  [("open", some (.series prices.opening)), ("high", some (.series prices.high)),
    ("low", some (.series prices.low)), ("close", some (.series prices.close)),
    ("volume", some (.series prices.volume)), ("hl2", mean 2 highLow),
    ("hlc3", mean 3 (List.zipWith (· + ·) highLow prices.close)), ("ohlc4", mean 4 fourPrices),
    ("true", some (.flag true)), ("false", some (.flag false))]

/-- The names that every environment starts with. -/
def reserved : List String :=
  ["open", "high", "low", "close", "volume", "hl2", "hlc3", "ohlc4", "true", "false"]

/-- Binds parameters one after the other. -/
def withParams (env : Environment α) : Params α → Outcome (Environment α)
  | [] => .ok env
  | (name, param) :: rest => do
      let value ← Value.ofScalar param
      withParams (Record.put env name value) rest

/-- The environment that a script starts in. -/
def start (prices : Prices α) (params : Params α) : Outcome (Environment α) :=
  withParams (ofPrices prices) params

end Environment

end Backtest
