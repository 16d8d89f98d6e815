import Backtest.Decimal.Double
import Backtest.Scalar
import Mathlib

/-!
# Doubles that exist

A quotient of integers is rounded to a finite double as long as it is well below the largest one.
Hence every integer of fewer than 1023 bits has a double, and so have the spans between two
timestamps, counted in days.
-/

namespace Backtest

namespace Binary

/-- A quotient below `2 ^ 1023` has a finite double. -/
theorem finite_ofQuotient (negative : Bool) {num den : Nat} (hlog : num.log2 ≤ den.log2 + 1022) :
    ∃ mantissa exponent, ofQuotient negative num den = finite negative mantissa exponent := by
  unfold ofQuotient
  dsimp only
  by_cases hnum : num = 0
  · rw [if_pos hnum]
    exact ⟨_, _, rfl⟩
  · -- The exponent is the guess or the least one, and rounding raises it by two at most.
    rw [if_neg hnum, if_neg]
    · exact ⟨_, _, rfl⟩
    · unfold greatestExponent leastExponent
      split <;> split <;> omega

theorem finite?_ofQuotient (negative : Bool) {num den : Nat} (hlog : num.log2 ≤ den.log2 + 1022) :
    ∃ x, (ofQuotient negative num den).finite? = some x := by
  obtain ⟨mantissa, exponent, hfinite⟩ := finite_ofQuotient negative hlog
  exact ⟨_, congrArg finite? hfinite⟩

end Binary

theorem log2_le_of_lt {n exponent : Nat} (hn : n < 2 ^ (exponent + 1)) : n.log2 ≤ exponent := by
  by_cases hzero : n = 0
  · rw [hzero, Nat.log2_zero]
    exact Nat.zero_le exponent
  · exact Nat.le_of_lt_succ ((Nat.log2_lt hzero).2 hn)

theorem log2_mul_succ_le {n exponent : Nat} (hn : n < 2 ^ exponent) :
    (n * (n + 1)).log2 ≤ exponent + exponent := by
  apply log2_le_of_lt
  calc n * (n + 1)
      < 2 ^ exponent * 2 ^ exponent := Nat.mul_lt_mul_of_lt_of_le hn hn (Nat.two_pow_pos exponent)
    _ = 2 ^ (exponent + exponent) := (Nat.pow_add ..).symm
    _ ≤ 2 ^ (exponent + exponent + 1) := Nat.pow_le_pow_right (by decide) (Nat.le_succ _)

namespace Double

theorem exists_quotient {num : Int} (den : Nat) (hnum : num.natAbs.log2 ≤ 1022) :
    ∃ x : Float, Arith.quotient? num den = some x := by
  have hlog : num.natAbs.log2 ≤ den.log2 + 1022 := Nat.le_trans hnum (Nat.le_add_left _ _)
  obtain ⟨binary, hbinary⟩ := Binary.finite?_ofQuotient (num < 0) hlog
  exact ⟨binary.toFloat, congrArg (Option.map Binary.toFloat) hbinary⟩

/-- An integer of at most 1023 bits has a double. -/
theorem exists_ofInt {n : Int} (hn : n.natAbs.log2 ≤ 1022) :
    ∃ x : Float, Scalar.ofInt n = .ok x := by
  obtain ⟨x, hx⟩ := exists_quotient 1 hn
  have hint : Arith.ofInt? n = some x := hx
  refine ⟨x, ?_⟩
  rw [Scalar.ofInt, hint]

end Double

end Backtest
