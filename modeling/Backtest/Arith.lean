/-!
# The arithmetic of a series

Every number that a run computes with lives in a type `α` that carries an `Arith` structure.
Programs run on doubles (`Backtest.Decimal.Double`); laws that hold of exact numbers, or of any
interpretation of the operations, are stated over `Arith α` itself.  Comparisons are Boolean tests,
because on doubles an undefined operand makes each of them fail.
-/

namespace Backtest

class Arith (α : Type) extends Add α, Sub α, Mul α, Div α, Neg α where
  /-- The undefined value, which stands where a series has no number yet. -/
  nan : α
  infinity : α
  isNaN : α → Bool
  isFinite : α → Bool
  /-- Tests `x < y`. -/
  less : α → α → Bool
  /-- Tests `x ≤ y`. -/
  atMost : α → α → Bool
  /-- Tests whether two numbers have the same value. -/
  same : α → α → Bool
  abs : α → α
  sqrt : α → α
  power : α → α → α
  /-- The number nearest to a natural one. -/
  ofNat : Nat → α
  /-- The number nearest to an integer, or `none` beyond the largest finite number. -/
  ofInt? : Int → Option α
  /-- The number nearest to `± coefficient * 10 ^ exponent`; `true` stands for the minus sign. -/
  ofDecimal : Bool → Nat → Int → α
  /-- The number nearest to the quotient of two integers, the divisor being positive. -/
  quotient? : Int → Nat → Option α
  /-- The largest integer that is not above a finite number. -/
  floor? : α → Option Int
  /-- The number nearest to the value rounded to a count of decimal places, halves to even. -/
  roundTo : Nat → α → α
  /-- The text of a number where text is compared or shown. -/
  text : α → String
  /-- The text of a number with a count of decimal places. -/
  fixed : Nat → α → String

namespace Arith

variable {α : Type} [Arith α]

def zero : α := ofNat 0

def one : α := ofNat 1

/-- A number without a fractional part. -/
def isWhole (x : α) : Bool :=
  match floor? x with
  | none => false
  | some n => match ofInt? n with
    | none => false
    | some y => same x (y : α)

/-- The larger of two numbers; undefined as soon as one of them is. -/
def maximum (x y : α) : α :=
  if atMost y x || isNaN x then x else y

/-- The smaller of two numbers; undefined as soon as one of them is. -/
def minimum (x y : α) : α :=
  if atMost x y || isNaN x then x else y

end Arith

end Backtest
