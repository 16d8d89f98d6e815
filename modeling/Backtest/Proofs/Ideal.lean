import Backtest.Proofs.Series.Course
import Backtest.Proofs.Series.Rescale
import Mathlib.Analysis.SpecialFunctions.Pow.Real

/-!
# Ideal numbers

The real numbers with an undefined value, as an arithmetic of series: nothing is rounded but where a
rounding is asked for.  There is no infinity, a quotient by zero is undefined, and so are roots of
negative numbers and powers of numbers that are not positive.  A number is shown by the integer
below it.

A positive factor is a change of unit of ideal numbers (`Ideal.rescales`).
A series without undefined values is that of its numbers (`Ideal.eq_numbers`), so a walk over it can
be told in real numbers alone (`Ideal.scan_numbers`).
-/

namespace Backtest

inductive Ideal where
  | undefined
  | finite (value : ℝ)

namespace Ideal

open scoped Classical in
/-- A test of two numbers, which fails as soon as one is undefined. -/
noncomputable def compare (test : ℝ → ℝ → Prop) : Ideal → Ideal → Bool
  | .finite x, .finite y => decide (test x y)
  | _, _ => false

/-- An operation on the numbers, undefined as soon as an operand is. -/
def lift (f : ℝ → ℝ → ℝ) : Ideal → Ideal → Ideal
  | .finite x, .finite y => .finite (f x y)
  | _, _ => .undefined

def map (f : ℝ → ℝ) : Ideal → Ideal
  | .finite x => .finite (f x)
  | .undefined => .undefined

/-- The real number, if it is defined. -/
def real? : Ideal → Option ℝ
  | .finite x => some x
  | .undefined => none

/-- The nearest integer, halves to even. -/
noncomputable def nearest (x : ℝ) : ℤ :=
  if Int.fract x < 1 / 2 ∨ (Int.fract x = 1 / 2 ∧ Even ⌊x⌋) then ⌊x⌋ else ⌊x⌋ + 1

noncomputable def roundTo (places : ℕ) (x : ℝ) : ℝ := nearest (x * 10 ^ places) / 10 ^ places

noncomputable def text : Ideal → String
  | .finite x => toString ⌊x⌋
  | .undefined => "nan"

noncomputable def quotient : Ideal → Ideal → Ideal
  | .finite x, .finite y => if y = 0 then .undefined else .finite (x / y)
  | _, _ => .undefined

noncomputable def sqrt : Ideal → Ideal
  | .finite x => if 0 ≤ x then .finite √x else .undefined
  | .undefined => .undefined

noncomputable def power : Ideal → Ideal → Ideal
  | .finite x, .finite y => if 0 < x then .finite (x ^ y) else .undefined
  | _, _ => .undefined

noncomputable instance : Arith Ideal where
  add := lift (· + ·)
  sub := lift (· - ·)
  mul := lift (· * ·)
  div := quotient
  neg := map (-·)
  nan := .undefined
  infinity := .undefined
  isNaN x := x.real?.isNone
  isFinite x := x.real?.isSome
  less := compare (· < ·)
  atMost := compare (· ≤ ·)
  same := compare (· = ·)
  abs := map fun x => |x|
  sqrt := sqrt
  power := power
  ofNat n := .finite n
  ofInt? n := some (.finite n)
  ofDecimal negative coefficient exponent :=
    .finite ((if negative then -1 else 1) * coefficient * (10 : ℝ) ^ exponent)
  quotient? num den := some (.finite (num / den))
  floor? x := x.real?.map Int.floor
  roundTo places := map (roundTo places)
  text := text
  fixed places x := text (map (roundTo places) x)

@[simp] theorem add_finite (x y : ℝ) : finite x + finite y = finite (x + y) := rfl

@[simp] theorem sub_finite (x y : ℝ) : finite x - finite y = finite (x - y) := rfl

@[simp] theorem mul_finite (x y : ℝ) : finite x * finite y = finite (x * y) := rfl

@[simp] theorem div_finite {x y : ℝ} (hy : y ≠ 0) : finite x / finite y = finite (x / y) :=
  if_neg hy

@[simp] theorem sqrt_finite {x : ℝ} (hx : 0 ≤ x) : Arith.sqrt (finite x) = finite √x := if_pos hx

@[simp] theorem ofNat_eq_finite (n : ℕ) : (Arith.ofNat n : Ideal) = finite n := rfl

theorem div_ofNat (x : ℝ) {n : ℕ} (hn : 1 ≤ n) : finite x / Arith.ofNat n = finite (x / n) :=
  div_finite (Nat.cast_ne_zero.2 (Nat.one_le_iff_ne_zero.1 hn))

theorem zero_eq_finite : (Arith.zero : Ideal) = finite 0 := congrArg finite Nat.cast_zero

@[simp] theorem neg_finite (x : ℝ) : -finite x = finite (-x) := rfl

@[simp] theorem isNaN_finite (x : ℝ) : Arith.isNaN (finite x) = false := rfl

open scoped Classical in
@[simp] theorem less_finite (x y : ℝ) : Arith.less (finite x) (finite y) = decide (x < y) := rfl

open scoped Classical in
@[simp] theorem same_finite (x y : ℝ) : Arith.same (finite x) (finite y) = decide (x = y) := rfl

/-- An integer is its own window length, if it is positive. -/
theorem windowLength_finite (n : ℤ) : Scalar.windowLength (finite n) = some (max 1 n).toNat := by
  have hfloor : ⌊(n : ℝ) + 1 * ((5 : ℕ) : ℝ) * (10 : ℝ) ^ (-1 : ℤ)⌋ = n := by
    rw [Int.floor_eq_iff]
    norm_num
  exact congrArg (fun n : ℤ => some (max 1 n).toNat) hfloor

/-- The series of the first numbers of a sequence. -/
def numbers (count : ℕ) (x : ℕ → ℝ) : Series Ideal :=
  Series.tabulate count fun bar => finite (x bar)

/-- The number of a series at a bar, or zero where it has none. -/
noncomputable def numberAt (xs : Series Ideal) (bar : ℕ) : ℝ := (xs[bar]?.bind real?).getD 0

/-- A series without undefined values is that of its numbers. -/
theorem eq_numbers {xs : Series Ideal} (hxs : ∀ x ∈ xs, Arith.isNaN x = false) :
    xs = numbers xs.length (numberAt xs) := by
  refine Series.eq_tabulate fun bar x hx => ?_
  have hdefined := hxs x (List.mem_of_getElem? hx)
  rw [numberAt, hx]
  cases x with
  | undefined => exact nomatch hdefined
  | finite value => rfl

/-- A walk over numbers whose steps lead through known states gives the values of the steps. -/
theorem scan_numbers {σ β : Type} {step : σ → Ideal → σ × β} {x : ℕ → ℝ} (states : ℕ → σ)
    (value : ℕ → β)
    (hstep : ∀ bar, step (states bar) (finite (x bar)) = (states (bar + 1), value bar))
    (count : ℕ) :
    Series.scan step (states 0) (numbers count x) = Series.tabulate count value := by
  have hlength : (numbers count x).length = count := Series.length_tabulate ..
  refine (Series.scan_eq_tabulate states value fun bar y hy => ?_).trans (by rw [hlength])
  have hbar : bar < count := hlength ▸ (List.getElem?_eq_some_iff.1 hy).1
  have hnumber : y = finite (x bar) :=
    Option.some.inj (hy.symm.trans (Series.getElem?_tabulate _ hbar))
  rw [hnumber, hstep]

/-- The number in a unit of which `factor` make up the old one. -/
def scale (factor : ℝ) : Ideal → Ideal := map (factor * ·)

section Scale

variable {factor : ℝ}

/-- A test that a factor keeps gives the same answer in the other unit. -/
theorem compare_scale {test : ℝ → ℝ → Prop}
    (htest : ∀ x y, test (factor * x) (factor * y) ↔ test x y) (x y : Ideal) :
    compare test (scale factor x) (scale factor y) = compare test x y := by
  cases x with
  | undefined => rfl
  | finite x =>
      cases y with
      | undefined => rfl
      | finite y => exact decide_eq_decide.2 (htest x y)

theorem lift_scale {f : ℝ → ℝ → ℝ} (hf : ∀ x y, f (factor * x) (factor * y) = factor * f x y)
    (x y : Ideal) : lift f (scale factor x) (scale factor y) = scale factor (lift f x y) := by
  cases x with
  | undefined => rfl
  | finite x =>
      cases y with
      | undefined => rfl
      | finite y => exact congrArg Ideal.finite (hf x y)

theorem quotient_scale (x k : Ideal) :
    quotient (scale factor x) k = scale factor (quotient x k) := by
  cases x with
  | undefined => rfl
  | finite x =>
      cases k with
      | undefined => rfl
      | finite k =>
          change (if k = 0 then _ else _) = scale factor (if k = 0 then _ else _)
          rw [apply_ite (scale factor), mul_div_assoc]
          rfl

theorem quotient_scale_scale (hfactor : 0 < factor) (x y : Ideal) :
    quotient (scale factor x) (scale factor y) = quotient x y := by
  cases x with
  | undefined => rfl
  | finite x =>
      cases y with
      | undefined => rfl
      | finite y =>
          change (if factor * y = 0 then _ else _) = if y = 0 then _ else _
          rw [mul_div_mul_left x y hfactor.ne']
          exact if_congr (mul_eq_zero_iff_left hfactor.ne') rfl rfl

/-- The root of a number that carries the unit twice carries it once. -/
theorem sqrt_scale (hfactor : 0 < factor) (x : Ideal) :
    sqrt (scale factor (scale factor x)) = scale factor (sqrt x) := by
  cases x with
  | undefined => rfl
  | finite x =>
      change (if 0 ≤ factor * (factor * x) then _ else _) = scale factor (if 0 ≤ x then _ else _)
      have hsquare : √(factor * (factor * x)) = factor * √x := by
        rw [← mul_assoc, Real.sqrt_mul (mul_self_nonneg factor), Real.sqrt_mul_self hfactor.le]
      have hsign : 0 ≤ factor * (factor * x) ↔ 0 ≤ x := by
        rw [mul_nonneg_iff_of_pos_left hfactor, mul_nonneg_iff_of_pos_left hfactor]
      rw [apply_ite (scale factor), hsquare]
      exact if_congr hsign rfl rfl

/-- A positive factor is a change of unit. -/
theorem rescales (hfactor : 0 < factor) : Rescales (scale factor) where
  isNaN_eq x := by cases x <;> rfl
  isFinite_eq x := by cases x <;> rfl
  less_eq := compare_scale fun _ _ => mul_lt_mul_iff_right₀ hfactor
  atMost_eq := compare_scale fun _ _ => mul_le_mul_iff_right₀ hfactor
  same_eq := compare_scale fun _ _ => mul_right_inj' hfactor.ne'
  zero_eq := by
    have hzero : factor * ((0 : ℕ) : ℝ) = (0 : ℕ) := by rw [Nat.cast_zero, mul_zero]
    exact congrArg Ideal.finite hzero
  nan_eq := rfl
  neg_eq x := by
    cases x with
    | undefined => rfl
    | finite x => exact congrArg Ideal.finite (mul_neg factor x).symm
  add_eq := lift_scale fun x y => (mul_add factor x y).symm
  sub_eq := lift_scale fun x y => (mul_sub factor x y).symm
  mul_left_eq k x := by
    cases k with
    | undefined => rfl
    | finite k =>
        cases x with
        | undefined => rfl
        | finite x => exact congrArg Ideal.finite (mul_left_comm k factor x)
  mul_right_eq x k := by
    cases x with
    | undefined => rfl
    | finite x =>
        cases k with
        | undefined => rfl
        | finite k => exact congrArg Ideal.finite (mul_assoc factor x k)
  div_eq := quotient_scale
  ratio_eq := quotient_scale_scale hfactor
  sqrt_eq := sqrt_scale hfactor

end Scale

end Ideal

end Backtest
