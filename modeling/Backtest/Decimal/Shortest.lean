import Backtest.Decimal.Binary

/-!
# The shortest decimal that reads back

`shortest` gives the decimal with the fewest digits among those whose nearest double is the given
one; of two such decimals it gives the one nearer to the double.  Each candidate is checked by
reading it back, so the choice is right by construction, and the exact expansion stands behind the
last check.
-/

namespace Backtest.Decimal

/-- The value `coefficient * 10 ^ exponent`. -/
structure Magnitude where
  coefficient : Nat
  exponent : Int
  deriving DecidableEq, Repr

/-- Tests `10 ^ k ≤ num / den`. -/
def powerAtMost (k : Int) (num den : Nat) : Bool :=
  if k < 0 then den ≤ num * Nat.pow 10 k.natAbs else den * Nat.pow 10 k.natAbs ≤ num

/-- The position of the decimal point before the first digit: the `k` with
`10 ^ (k - 1) ≤ num / den < 10 ^ k`.  The binary logarithm gives it up to two places. -/
def pointPosition (num den : Nat) : Int :=
  let guess : Int := Int.fdiv (((num.log2 : Int) - den.log2) * 1233) 4096
  (([3, 2, 1, 0, -1].map (guess + ·)).find? fun k => powerAtMost (k - 1) num den).getD guess

/-- `num / den` in units of `10 ^ exponent`, as a quotient of integers. -/
def inUnits (num den : Nat) (exponent : Int) : Nat × Nat :=
  if exponent < 0 then (num * Nat.pow 10 exponent.natAbs, den)
  else (num, den * Nat.pow 10 exponent.natAbs)

/-- The two neighbours of `num / den` on the grid of `10 ^ exponent`, the nearer one first. -/
def neighbours (num den : Nat) (exponent : Int) : List Magnitude :=
  let parts := inUnits num den exponent
  let down := parts.1 / parts.2
  let near := halfEven parts.1 parts.2
  [⟨near, exponent⟩, ⟨if near = down then down + 1 else down, exponent⟩]

/-- Drops the zeros that a coefficient ends in, at most `fuel` of them. -/
def dropZeros : Nat → Magnitude → Magnitude
  | 0, x => x
  | fuel + 1, x =>
      if x.coefficient ≠ 0 ∧ x.coefficient % 10 = 0 then
        dropZeros fuel ⟨x.coefficient / 10, x.exponent + 1⟩
      else x

/-- The digits of `mantissa * 2 ^ exponent` in full. -/
def exactDigits (mantissa : Nat) (exponent : Int) : Magnitude :=
  if exponent < 0 then ⟨mantissa * Nat.pow 5 exponent.natAbs, exponent⟩
  else ⟨mantissa * Nat.pow 2 exponent.natAbs, 0⟩

/-- The decimal with the fewest digits whose nearest double is `mantissa * 2 ^ exponent`. -/
def shortest (mantissa : Nat) (exponent : Int) : Magnitude :=
  if mantissa = 0 then ⟨0, 0⟩
  else
    let parts := Binary.magnitude mantissa exponent
    let point := pointPosition parts.1 parts.2
    let candidates := (List.range 17).flatMap fun (n : Nat) =>
      neighbours parts.1 parts.2 (point - ((n : Int) + 1))
    let readsBack (x : Magnitude) : Bool :=
      Binary.ofDecimal false x.coefficient x.exponent = .finite false mantissa exponent
    dropZeros 20 ((candidates.find? readsBack).getD (exactDigits mantissa exponent))

/-- The decimal digits of a natural number, the highest first. -/
def digits (n : Nat) : List Char := Nat.toDigits 10 n

end Backtest.Decimal
