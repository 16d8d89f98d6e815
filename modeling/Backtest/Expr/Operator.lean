import Backtest.Series.Basic

/-!
# Operators and built-in functions

The names that expressions use for operations, and what the operations do to single numbers.
-/

namespace Backtest.Expr

open Arith

inductive Comparison where
  | atLeast
  | atMost
  | differs
  | equals
  | above
  | below
  deriving DecidableEq

namespace Comparison

def symbol : Comparison → List Char
  | .atLeast => ['>', '=']
  | .atMost => ['<', '=']
  | .differs => ['!', '=']
  | .equals => ['=', '=']
  | .above => ['>']
  | .below => ['<']

/-- The comparisons in the order in which a text is split at them. -/
def all : List Comparison := [.atLeast, .atMost, .differs, .equals, .above, .below]

def test {α : Type} [Arith α] : Comparison → α → α → Bool
  | .atLeast, x, y => Arith.atMost y x
  | .atMost, x, y => Arith.atMost x y
  | .differs, x, y => !same x y
  | .equals, x, y => same x y
  | .above, x, y => less y x
  | .below, x, y => less x y

end Comparison

inductive Operation where
  | add
  | subtract
  | multiply
  | divide
  deriving DecidableEq

namespace Operation

def symbol : Operation → List Char
  | .add => ['+']
  | .subtract => ['-']
  | .multiply => ['*']
  | .divide => ['/']

/-- The operations in the order in which a text is split at them. -/
def all : List Operation := [.add, .subtract, .multiply, .divide]

/-- The result for two numbers; a quotient by zero is undefined. -/
def apply {α : Type} [Arith α] : Operation → α → α → α
  | .add, x, y => x + y
  | .subtract, x, y => x - y
  | .multiply, x, y => x * y
  | .divide, x, y => if same y zero then nan else x / y

end Operation

inductive Junction where
  | disjunction
  | conjunction
  deriving DecidableEq

namespace Junction

/-- The two spellings of a junction. -/
def symbols : Junction → List (List Char)
  | .disjunction => [[' ', 'o', 'r', ' '], ['|', '|']]
  | .conjunction => [[' ', 'a', 'n', 'd', ' '], ['&', '&']]

def apply : Junction → Bool → Bool → Bool
  | .disjunction, p, q => p || q
  | .conjunction, p, q => p && q

end Junction

/-- The functions that a call can name. -/
inductive Builtin where
  | simple
  | exponential
  | weighted
  | wilder
  | strength
  | crossover
  | crossunder
  | highest
  | lowest
  | stochastic
  | averageRange
  | convergence
  | bands
  | absolute
  | larger
  | smaller
  | defined
  deriving DecidableEq

namespace Builtin

def name : Builtin → String
  | .simple => "ta.sma"
  | .exponential => "ta.ema"
  | .weighted => "ta.wma"
  | .wilder => "ta.rma"
  | .strength => "ta.rsi"
  | .crossover => "ta.crossover"
  | .crossunder => "ta.crossunder"
  | .highest => "ta.highest"
  | .lowest => "ta.lowest"
  | .stochastic => "ta.stoch"
  | .averageRange => "ta.atr"
  | .convergence => "ta.macd"
  | .bands => "ta.bb"
  | .absolute => "math.abs"
  | .larger => "math.max"
  | .smaller => "math.min"
  | .defined => "nz"

def all : List Builtin :=
  [.simple, .exponential, .weighted, .wilder, .strength, .crossover, .crossunder, .highest, .lowest,
    .stochastic, .averageRange, .convergence, .bands, .absolute, .larger, .smaller, .defined]

def ofName? (name : String) : Option Builtin := all.find? fun builtin => builtin.name == name

end Builtin

/-- The functions with three results. -/
inductive Triple where
  | convergence
  | bands
  deriving DecidableEq

def Triple.name : Triple → String
  | .convergence => Builtin.convergence.name
  | .bands => Builtin.bands.name

def Triple.ofName? (name : String) : Option Triple :=
  [Triple.convergence, Triple.bands].find? fun triple => triple.name == name

end Backtest.Expr
