import Backtest.Arith

/-!
# Exact numbers

The rational numbers with an undefined value, as an arithmetic of series.  All comparisons and the
four operations compute, so that what holds over every arithmetic can be tried out on a closed
instance.  Infinity, roots and powers are undefined here.
-/

namespace Backtest

inductive Exact where
  | undefined
  | finite (value : Rat)
  deriving DecidableEq

namespace Exact

/-- An operation on the numbers, undefined as soon as an operand is. -/
def lift (f : Rat → Rat → Rat) : Exact → Exact → Exact
  | .finite x, .finite y => .finite (f x y)
  | _, _ => .undefined

/-- A test of two numbers, which fails as soon as one is undefined. -/
def compare (test : Rat → Rat → Bool) : Exact → Exact → Bool
  | .finite x, .finite y => test x y
  | _, _ => false

def map (f : Rat → Rat) : Exact → Exact
  | .finite x => .finite (f x)
  | .undefined => .undefined

/-- The number as a rational one, if it is defined. -/
def rational? : Exact → Option Rat
  | .finite x => some x
  | .undefined => none

/-- The nearest integer, halves to even. -/
def nearest (x : Rat) : Int :=
  let below := x.floor
  let rest := x - below
  if rest < 1 / 2 then below
  else if 1 / 2 < rest then below + 1
  else if below % 2 = 0 then below
  else below + 1

def roundTo (places : Nat) (x : Rat) : Rat := nearest (x * 10 ^ places) / 10 ^ places

def text : Exact → String
  | .finite x => toString x
  | .undefined => "nan"

instance : Add Exact := ⟨lift (· + ·)⟩
instance : Sub Exact := ⟨lift (· - ·)⟩
instance : Mul Exact := ⟨lift (· * ·)⟩
instance : Neg Exact := ⟨map (-·)⟩

/-- A quotient by zero is undefined. -/
instance : Div Exact :=
  ⟨fun x y => if y = .finite 0 then .undefined else lift (· / ·) x y⟩

instance : Arith Exact where
  nan := .undefined
  infinity := .undefined
  isNaN x := x.rational?.isNone
  isFinite x := x.rational?.isSome
  less := compare fun x y => x < y
  atMost := compare fun x y => x ≤ y
  same := compare (· == ·)
  abs := map Rat.abs
  sqrt _ := .undefined
  power _ _ := .undefined
  ofNat n := .finite n
  ofInt? n := some (.finite n)
  ofDecimal negative coefficient exponent :=
    .finite ((if negative then -1 else 1) * coefficient * (10 : Rat) ^ exponent)
  quotient? num den := some (.finite (num / den))
  floor? x := x.rational?.map Rat.floor
  roundTo places := map (roundTo places)
  text := text
  fixed places x := text (map (roundTo places) x)

end Exact

end Backtest
