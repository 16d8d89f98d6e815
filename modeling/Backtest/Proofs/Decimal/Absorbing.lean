import Backtest.Proofs.Decimal.Steady

/-!
# Absorbing arithmetic

What an undefined number does to a computation that meets it.  There is one undefined number; each
of the operations gives it back as soon as an operand is undefined, and it passes no comparison.
An indicator over bars that have no value yet is undefined by these laws alone, whatever the other
numbers are.

Doubles are absorbing (`Double.absorbing`), and so are exact numbers (`Exact.absorbing`).
-/

namespace Backtest

open Arith

structure Absorbing (α : Type) [Arith α] : Prop where
  nan_undefined : isNaN (nan : α) = true
  eq_nan : ∀ x : α, isNaN x = true → x = nan
  add_spreads : Spreads (α := α) (· + ·)
  sub_spreads : Spreads (α := α) (· - ·)
  mul_spreads : Spreads (α := α) (· * ·)
  div_spreads : Spreads (α := α) (· / ·)
  sqrt_undefined : ∀ x : α, isNaN x = true → isNaN (sqrt x) = true
  less_defined : ∀ x y : α, less x y = true → isNaN x = false ∧ isNaN y = false
  infinities_differ : same (-infinity : α) infinity = false

/-! ## Undefined operands -/

namespace Absorbing

variable {α : Type} [Arith α] (habsorbing : Absorbing α)
include habsorbing

/-- An operation that spreads what is undefined gives the undefined number. -/
theorem op_eq_nan {op : α → α → α} (hspreads : Spreads op) {x y : α} (hnan : x = nan ∨ y = nan) :
    op x y = nan := by
  apply habsorbing.eq_nan
  apply hspreads
  rcases hnan with rfl | rfl
  · exact .inl habsorbing.nan_undefined
  · exact .inr habsorbing.nan_undefined

theorem nan_add (x : α) : nan + x = nan := habsorbing.op_eq_nan habsorbing.add_spreads (.inl rfl)

theorem add_nan (x : α) : x + nan = nan := habsorbing.op_eq_nan habsorbing.add_spreads (.inr rfl)

theorem nan_sub (x : α) : nan - x = nan := habsorbing.op_eq_nan habsorbing.sub_spreads (.inl rfl)

theorem nan_mul (x : α) : nan * x = nan := habsorbing.op_eq_nan habsorbing.mul_spreads (.inl rfl)

theorem nan_div (x : α) : nan / x = nan := habsorbing.op_eq_nan habsorbing.div_spreads (.inl rfl)

theorem less_nan (x : α) : less x nan = false := by
  apply Bool.eq_false_iff.2
  intro hless
  have hdefined := (habsorbing.less_defined x nan hless).2
  rw [habsorbing.nan_undefined] at hdefined
  cases hdefined

theorem nan_less (x : α) : less nan x = false := by
  apply Bool.eq_false_iff.2
  intro hless
  have hdefined := (habsorbing.less_defined nan x hless).1
  rw [habsorbing.nan_undefined] at hdefined
  cases hdefined

end Absorbing

/-! ## Instances -/

/-- All undefined doubles are one number: the bits that would tell them apart are not kept. -/
theorem Double.absorbing : Absorbing Float where
  nan_undefined := steady.nan_undefined
  eq_nan x hx := by
    apply eq_of_unpack
    rw [unpack_of_undefined hx, unpack_of_undefined steady.nan_undefined]
  add_spreads := steady.add_spreads
  sub_spreads := steady.sub_spreads
  mul_spreads := steady.mul_spreads
  div_spreads := steady.div_spreads
  sqrt_undefined := steady.sqrt_undefined
  less_defined := lawful.less_defined
  infinities_differ := by decide +kernel

theorem Exact.absorbing : Absorbing Exact where
  nan_undefined := steady.nan_undefined
  eq_nan x hx := by
    cases x with
    | undefined => rfl
    | finite r => cases hx
  add_spreads := steady.add_spreads
  sub_spreads := steady.sub_spreads
  mul_spreads := steady.mul_spreads
  div_spreads := steady.div_spreads
  sqrt_undefined := steady.sqrt_undefined
  less_defined x y hless := by
    cases x with
    | undefined => cases hless
    | finite r =>
        cases y with
        | undefined => cases hless
        | finite s => exact ⟨rfl, rfl⟩
  infinities_differ := rfl

end Backtest
