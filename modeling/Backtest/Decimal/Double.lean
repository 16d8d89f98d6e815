import Backtest.Arith
import Backtest.Decimal.Layout

/-!
# Doubles as an arithmetic

The arithmetic that programs run on: the operations of IEEE doubles, with exact integer arithmetic
wherever a double is read, printed or rounded to decimal places.
-/

namespace Backtest

open Decimal

/-- The double nearest to a natural number. -/
def Binary.ofNat (n : Nat) : Binary := ofQuotient false n 1

def Binary.finite? : Binary → Option Binary
  | .finite negative mantissa exponent => some (.finite negative mantissa exponent)
  | _ => none

instance : Arith Float where
  nan := 0.0 / 0.0
  infinity := 1.0 / 0.0
  isNaN := Float.isNaN
  isFinite := Float.isFinite
  less x y := decide (x < y)
  atMost x y := decide (x ≤ y)
  same x y := x == y
  abs := Float.abs
  sqrt := Float.sqrt
  power := Float.pow
  ofNat n := if n < Nat.pow 2 53 then n.toUInt64.toFloat else (Binary.ofNat n).toFloat
  ofInt? n := ((Binary.ofQuotient (n < 0) n.natAbs 1).finite?).map Binary.toFloat
  ofDecimal negative coefficient exponent :=
    (Binary.ofDecimal negative coefficient exponent).toFloat
  quotient? num den := ((Binary.ofQuotient (num < 0) num.natAbs den).finite?).map Binary.toFloat
  floor? x := (Binary.ofFloat x).floor?
  roundTo places x := ((Binary.ofFloat x).roundTo places).toFloat
  text x := String.ofList (plain (Binary.ofFloat x))
  fixed places x := String.ofList (Field.render ⟨places, false, false⟩ (Binary.ofFloat x))

/-- A double with twelve significant digits. -/
def Decimal.twelveDigits (x : Float) : String := String.ofList (significant 12 (Binary.ofFloat x))

end Backtest
