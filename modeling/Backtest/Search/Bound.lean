import Backtest.Number

/-!
# The order of scalars

The bounds of a range are compared before anything is computed with them.  Numbers, truth values
included, compare by value, texts by their characters, and lists by their first items that differ,
a list coming after its own beginnings.  No other two scalars compare.
-/

namespace Backtest.Scalar

variable {α : Type} [Arith α]

/-- The number that a scalar equals, if it is one. -/
def number? (value : Scalar α) : Option (Number α) := (Number.ofScalar value).toOption

mutual

/-- Two scalars are equal.  An undefined number equals nothing. -/
def equal : Scalar α → Scalar α → Bool
  | .list xs, .list ys => equalItems xs ys
  | .text x, .text y => x == y
  | .missing, .missing => true
  | x, y => match x.number?, y.number? with
    | some a, some b => a.same b
    | _, _ => false

def equalItems : List (Scalar α) → List (Scalar α) → Bool
  | [], [] => true
  | x :: xs, y :: ys => equal x y && equalItems xs ys
  | _, _ => false

end

mutual

/-- Tests whether a scalar comes after another one. -/
def isAbove : Scalar α → Scalar α → Outcome Bool
  | .list xs, .list ys => isAboveItems xs ys
  | .text x, .text y => .ok (y < x)
  | x, y => match x.number?, y.number? with
    | some a, some b => .ok (b.below a)
    | _, _ => .error .wrongType

def isAboveItems : List (Scalar α) → List (Scalar α) → Outcome Bool
  | x :: xs, y :: ys => if equal x y then isAboveItems xs ys else isAbove x y
  | xs, [] => .ok !xs.isEmpty
  | [], _ :: _ => .ok false

end

end Backtest.Scalar
