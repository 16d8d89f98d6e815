import Backtest.Scalar

/-!
# Integers and numbers

Where integers stay integers, a value is an integer of any size or a number.  Arithmetic on integers
is exact; as soon as a number takes part, integers are rounded to numbers first.  Comparisons are
exact in any case.
-/

namespace Backtest

inductive Number (α : Type) where
  | int (value : Int)
  | real (value : α)

namespace Number

variable {α : Type} [Arith α]

/-- The value that a scalar is; a truth value counts as one or zero. -/
def ofScalar : Scalar α → Outcome (Number α)
  | .int value => .ok (.int value)
  | .real value => .ok (.real value)
  | .flag value => .ok (.int (if value then 1 else 0))
  | .text _ | .missing | .list _ => .error .wrongType

def toScalar : Number α → Scalar α
  | .int value => .int value
  | .real value => .real value

def toReal : Number α → Outcome α
  | .int value => Scalar.ofInt value
  | .real value => .ok value

/-- Tests whether an integer is below a number. -/
def intBelow (n : Int) (x : α) : Bool :=
  match Arith.floor? x with
  | some floor => n < floor || (n == floor && !Arith.isWhole x)
  | none => Arith.less Arith.zero x

/-- Tests whether a number is below an integer. -/
def belowInt (x : α) (n : Int) : Bool :=
  match Arith.floor? x with
  | some floor => floor < n
  | none => Arith.less x Arith.zero

/-- Tests `x < y`; an undefined number is below nothing, and nothing is below it. -/
def below : Number α → Number α → Bool
  | .int m, .int n => m < n
  | .int m, .real y => intBelow m y
  | .real x, .int n => belowInt x n
  | .real x, .real y => Arith.less x y

/-- Tests whether two values are equal. -/
def same : Number α → Number α → Bool
  | .int m, .int n => m == n
  | .int m, .real y => Arith.isWhole y && Arith.floor? y == some m
  | .real x, .int n => Arith.isWhole x && Arith.floor? x == some n
  | .real x, .real y => Arith.same x y

/-- An operation that is exact on integers. -/
def combine (exact : Int → Int → Int) (rounded : α → α → α) (x y : Number α) :
    Outcome (Number α) :=
  match x, y with
  | .int m, .int n => .ok (.int (exact m n))
  | x, y => do
      let a ← x.toReal
      let b ← y.toReal
      pure (.real (rounded a b))

def add (x y : Number α) : Outcome (Number α) := combine (· + ·) (· + ·) x y

def sub (x y : Number α) : Outcome (Number α) := combine (· - ·) (· - ·) x y

def mul (x y : Number α) : Outcome (Number α) := combine (· * ·) (· * ·) x y

/-- The quotient by a value that is not zero. -/
def div (x y : Number α) : Outcome α :=
  match x, y with
  | .int m, .int n =>
      match Arith.quotient? (if n < 0 then -m else m) n.natAbs with
      | some quotient => .ok quotient
      | none => .error .quotientTooLarge
  | x, y => do
      let a ← x.toReal
      let b ← y.toReal
      pure (a / b)

/-- The value rounded to a count of decimal places. -/
def roundTo (places : Nat) : Number α → Number α
  | .int value => .int value
  | .real value => .real (Arith.roundTo places value)

/-- The largest integer that is not above a number. -/
def floorOf (x : α) : Outcome Int :=
  match Arith.floor? x with
  | some n => .ok n
  | none => .error (if Arith.isNaN x then .undefinedToInteger else .infiniteToInteger)

end Number

end Backtest
