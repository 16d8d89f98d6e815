import Backtest.Arith

/-!
# Sums of a series

Three orders of addition, which differ only by rounding:

* `leftSum` adds from left to right;
* `compensatedSum` adds from left to right and takes the rounding error of each addition out of the
  next term;
* `pairwiseSum` adds in a fixed tree: short runs from left to right, runs up to 128 in eight
  interleaved sums, longer ones in two halves.
-/

namespace Backtest.Summary

variable {α : Type} [Arith α]

def leftSum (xs : List α) : α := xs.foldl (· + ·) Arith.zero

/-- A running sum, and what an addition put into it beyond its term. -/
structure Compensated (α : Type) where
  total : α
  excess : α

/-- Adds a term less the excess of the sum.  An excess that is not finite is not kept. -/
def Compensated.add (sum : Compensated α) (x : α) : Compensated α :=
  let term := x - sum.excess
  let total := sum.total + term
  let excess := total - sum.total - term
  ⟨total, if Arith.isFinite excess then excess else sum.excess⟩

/-- The compensated sum of some terms; a single term is its own sum, the sign of a zero included. -/
def compensatedSum : List α → α
  | [x] => x
  | xs => (xs.foldl Compensated.add ⟨Arith.zero, Arith.zero⟩).total

/-- Adds the entries of a list to eight running sums, eight at a time; gives the sums and the
entries that are left. -/
def eightSums : List α → List α → List α × List α
  | sums, a :: b :: c :: d :: e :: f :: g :: h :: rest =>
      eightSums (List.zipWith (· + ·) sums [a, b, c, d, e, f, g, h]) rest
  | sums, rest => (sums, rest)

/-- The sum of at most 128 entries. -/
def blockSum (xs : List α) : α :=
  if xs.length < 8 then leftSum xs
  else
    match eightSums (xs.take 8) (xs.drop 8) with
    | ([a, b, c, d, e, f, g, h], rest) =>
        rest.foldl (· + ·) (((a + b) + (c + d)) + ((e + f) + (g + h)))
    | (sums, rest) => leftSum (sums ++ rest)

/-- The length of the first half of a long run: half of it, rounded down to a multiple of eight. -/
def halfLength (count : Nat) : Nat := count / 2 - count / 2 % 8

def pairwiseSum (xs : List α) : α :=
  if xs.length ≤ 128 then blockSum xs
  else pairwiseSum (xs.take (halfLength xs.length)) + pairwiseSum (xs.drop (halfLength xs.length))
termination_by xs.length
decreasing_by
  · simp only [List.length_take, halfLength]
    omega
  · simp only [List.length_drop, halfLength]
    omega

def mean (xs : List α) : α := pairwiseSum xs / Arith.ofNat xs.length

/-- The population standard deviation. -/
def standardDeviation (xs : List α) : α :=
  let middle := mean xs
  Arith.sqrt (mean (xs.map fun x => (x - middle) * (x - middle)))

end Backtest.Summary
