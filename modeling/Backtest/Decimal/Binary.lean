/-!
# Doubles, opened up

A finite double is `± mantissa * 2 ^ exponent`.  Reading, printing and rounding work on this form in
exact integer arithmetic:

* `halfEven` rounds a quotient to the nearest integer, a half to the even neighbour;
* `Binary.ofQuotient` rounds a quotient to the nearest double;
* `Binary.ofDecimal` rounds `coefficient * 10 ^ exponent` to the nearest double;
* `Binary.ofFloat` and `Binary.toFloat` are the two directions of the bit layout.
-/

namespace Backtest

/-- The integer nearest to `num / den`; a half goes to the even neighbour. -/
def halfEven (num den : Nat) : Nat :=
  let down := num / den
  let rest := num % den
  if den < 2 * rest || (2 * rest == den && down % 2 == 1) then down + 1 else down

/-- A double: undefined, infinite, or `± mantissa * 2 ^ exponent`. -/
inductive Binary where
  | nan
  | infinite (negative : Bool)
  | finite (negative : Bool) (mantissa : Nat) (exponent : Int)
  deriving DecidableEq, Repr

namespace Binary

/-- The exponent of the smallest positive double. -/
def leastExponent : Int := -1074

/-- The exponent of the largest finite double. -/
def greatestExponent : Int := 971

/-- `num / den` scaled by `2 ^ -exponent`, as a quotient of integers. -/
def scaled (num den : Nat) (exponent : Int) : Nat × Nat :=
  if exponent < 0 then (num * Nat.pow 2 exponent.natAbs, den)
  else (num, den * Nat.pow 2 exponent.natAbs)

/-- The nearest double to `± num / den` with `den` positive: at most 53 bits of mantissa, fewer
below the normal range, and infinite from halfway beyond the largest finite double. -/
def ofQuotient (negative : Bool) (num den : Nat) : Binary :=
  if num = 0 then finite negative 0 leastExponent
  else
    let guess : Int := (num.log2 : Int) - (den.log2 : Int) - 53
    let low := max guess leastExponent
    let parts := scaled num den low
    let exponent := if Nat.pow 2 53 ≤ parts.1 / parts.2 then low + 1 else low
    let exact := scaled num den exponent
    let rounded := halfEven exact.1 exact.2
    let carried := rounded == Nat.pow 2 53
    let mantissa := if carried then Nat.pow 2 52 else rounded
    let exponent := if carried then exponent + 1 else exponent
    if greatestExponent < exponent then infinite negative
    else finite negative mantissa exponent

/-- The nearest double to `± coefficient * 10 ^ exponent`.  Exponents far outside the range of
doubles are answered without computing the power. -/
def ofDecimal (negative : Bool) (coefficient : Nat) (exponent : Int) : Binary :=
  if coefficient = 0 then finite negative 0 leastExponent
  else if 400 < exponent then infinite negative
  else if exponent < -400 - (coefficient.log2 : Int) then finite negative 0 leastExponent
  else if exponent < 0 then ofQuotient negative coefficient (Nat.pow 10 exponent.natAbs)
  else ofQuotient negative (coefficient * Nat.pow 10 exponent.natAbs) 1

/-- The sign, the eleven exponent bits and the 52 fraction bits of a double. -/
def ofFloat (x : Float) : Binary :=
  let bits : Nat := x.toBits.toNat
  let negative := bits / Nat.pow 2 63 == 1
  let biased : Nat := bits / Nat.pow 2 52 % Nat.pow 2 11
  let fraction : Nat := bits % Nat.pow 2 52
  if biased = 2047 then
    if fraction = 0 then infinite negative else nan
  else if biased = 0 then finite negative fraction leastExponent
  else finite negative (fraction + Nat.pow 2 52) ((biased : Int) - 1075)

/-- The double with the given parts.  The exponent field counts steps of the exponent above the
least one; the leading bit of a full mantissa carries into it. -/
def toFloat : Binary → Float
  | nan => 0.0 / 0.0
  | infinite negative => if negative then -1.0 / 0.0 else 1.0 / 0.0
  | finite negative mantissa exponent =>
      let magnitude := (exponent - leastExponent).toNat * Nat.pow 2 52 + mantissa
      Float.ofBits (UInt64.ofNat (if negative then Nat.pow 2 63 + magnitude else magnitude))

/-- The magnitude of `mantissa * 2 ^ exponent` as a quotient of integers. -/
def magnitude (mantissa : Nat) (exponent : Int) : Nat × Nat :=
  scaled mantissa 1 (-exponent)

/-- The largest integer that is not above a finite double. -/
def floor? : Binary → Option Int
  | finite negative mantissa exponent =>
      let parts := magnitude mantissa exponent
      let signed : Int := if negative then -(parts.1 : Int) else parts.1
      some (Int.fdiv signed parts.2)
  | _ => none

/-- The nearest double to the value rounded to `places` decimal places, halves to even. -/
def roundTo (places : Nat) : Binary → Binary
  | finite negative mantissa exponent =>
      let parts := magnitude mantissa exponent
      ofQuotient negative (halfEven (parts.1 * Nat.pow 10 places) parts.2) (Nat.pow 10 places)
  | x => x

end Binary

end Backtest
