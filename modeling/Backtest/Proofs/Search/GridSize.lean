import Backtest.Proofs.Exact
import Backtest.Proofs.Search.Enumeration
import Backtest.Proofs.Search.Plan
import Mathlib.Tactic.Linarith
import Mathlib.Tactic.Positivity
import Mathlib.Tactic.Ring

/-!
# The size of a grid

In exact arithmetic a range steps through the numbers `least + k * step`.  `expand` lists those that
exceed the greatest value by no more than a tolerance.  `countOf` takes the same tolerance for a part
of a step, so that it counts those that exceed the greatest value by no more than the tolerance
*times the step*.  The two agree unless a value lies between these limits
(`Bounded.length_eq_countOf_iff`); where none does, `gridSize` is the number of combinations that a
search compares with its cap (`gridSize_eq_size`).
-/

namespace Backtest

/-! ## Rounding -/

namespace Exact

theorem nearest_intCast (n : Int) : nearest (n : Rat) = n := by
  simp [nearest, Rat.floor_intCast]

theorem roundTo_intCast (places : Nat) (n : Int) : roundTo places n = n := by
  have hscaled : (n : Rat) * 10 ^ places = ((n * 10 ^ places : Int) : Rat) := by push_cast; rfl
  rw [roundTo, hscaled, nearest_intCast]
  push_cast
  exact mul_div_cancel_right₀ _ (by positivity)

theorem abs_nearest_sub_le (x : Rat) : |(nearest x : Rat) - x| ≤ 1 / 2 := by
  have hfloor := Rat.floor_le x
  have hnext := Rat.lt_floor_add_one x
  push_cast at hnext
  rw [nearest, abs_le]
  split_ifs <;> push_cast <;> constructor <;> linarith

/-- Numbers that are more than one unit in the last place apart do not round to the same one. -/
theorem roundTo_lt {places : Nat} {x y : Rat} (hapart : x + 1 / 10 ^ places < y) :
    roundTo places x < roundTo places y := by
  have hunit : (0 : Rat) < 10 ^ places := by positivity
  have hscaled : x * 10 ^ places + 1 < y * 10 ^ places := by
    have hproduct := mul_lt_mul_of_pos_right hapart hunit
    rwa [add_mul, one_div_mul_cancel hunit.ne'] at hproduct
  have hlower := (abs_le.1 (abs_nearest_sub_le (x * 10 ^ places))).2
  have hupper := (abs_le.1 (abs_nearest_sub_le (y * 10 ^ places))).1
  exact div_lt_div_of_pos_right (by linarith) hunit

end Exact

/-! ## Exact arithmetic on integers and numbers -/

namespace Number

variable {x y : Number Exact} {a b : Rat}

/-- An exact value that is rational is an integer or a defined number. -/
theorem toReal_eq_finite :
    x.toReal = .ok (.finite a) ↔ (∃ n : Int, x = .int n ∧ a = n) ∨ x = .real (.finite a) := by
  cases x with
  | int n =>
      constructor
      · intro hx
        injection hx with hx
        injection hx with hx
        exact .inl ⟨n, rfl, hx.symm⟩
      · rintro (⟨m, hm, rfl⟩ | hx)
        · injection hm with hm
          rw [hm]
          rfl
        · exact nomatch hx
  | real value =>
      constructor
      · intro hx
        injection hx with hx
        exact .inr (congrArg _ hx)
      · rintro (⟨n, hn, _⟩ | hx)
        · exact nomatch hn
        · injection hx with hx
          rw [hx]
          rfl

theorem exists_combine {exact : Int → Int → Int} {f : Rat → Rat → Rat}
    (hexact : ∀ m n : Int, ((exact m n : Int) : Rat) = f m n) (hx : x.toReal = .ok (.finite a))
    (hy : y.toReal = .ok (.finite b)) :
    ∃ z, combine exact (Exact.lift f) x y = .ok z ∧ z.toReal = .ok (.finite (f a b)) := by
  rcases toReal_eq_finite.1 hx with ⟨m, rfl, rfl⟩ | rfl <;>
    rcases toReal_eq_finite.1 hy with ⟨n, rfl, rfl⟩ | rfl
  · exact ⟨_, rfl, toReal_eq_finite.2 (.inl ⟨_, rfl, (hexact m n).symm⟩)⟩
  all_goals exact ⟨_, rfl, rfl⟩

theorem exists_add (hx : x.toReal = .ok (.finite a)) (hy : y.toReal = .ok (.finite b)) :
    ∃ z, x.add y = .ok z ∧ z.toReal = .ok (.finite (a + b)) :=
  exists_combine Int.cast_add hx hy

theorem exists_sub (hx : x.toReal = .ok (.finite a)) (hy : y.toReal = .ok (.finite b)) :
    ∃ z, x.sub y = .ok z ∧ z.toReal = .ok (.finite (a - b)) :=
  exists_combine Int.cast_sub hx hy

theorem exists_mul (hx : x.toReal = .ok (.finite a)) (hy : y.toReal = .ok (.finite b)) :
    ∃ z, x.mul y = .ok z ∧ z.toReal = .ok (.finite (a * b)) :=
  exists_combine Int.cast_mul hx hy

theorem div_eq (hx : x.toReal = .ok (.finite a)) (hy : y.toReal = .ok (.finite b)) (hb : 0 < b) :
    x.div y = .ok (.finite (a / b)) := by
  have hdivide (a : Rat) : (.finite a / .finite b : Exact) = .finite (a / b) :=
    if_neg fun hzero => hb.ne' (Exact.finite.inj hzero)
  rcases toReal_eq_finite.1 hx with ⟨m, rfl, rfl⟩ | rfl <;>
    rcases toReal_eq_finite.1 hy with ⟨n, rfl, rfl⟩ | rfl
  · have hn : 0 < n := Int.cast_pos.1 hb
    have hquotient : (Number.int m : Number Exact).div (.int n) =
        .ok (.finite ((if n < 0 then -m else m : Int) / (n.natAbs : Rat))) := rfl
    rw [hquotient, if_neg hn.not_gt, Nat.cast_natAbs, abs_of_pos hn]
  all_goals exact congrArg Except.ok (hdivide _)

theorem isWhole_finite (b : Rat) :
    Arith.isWhole (.finite b : Exact) = decide (b = (b.floor : Rat)) := rfl

theorem below_eq (hx : x.toReal = .ok (.finite a)) (hy : y.toReal = .ok (.finite b)) :
    x.below y = decide (a < b) := by
  rcases toReal_eq_finite.1 hx with ⟨m, rfl, rfl⟩ | rfl <;>
    rcases toReal_eq_finite.1 hy with ⟨n, rfl, rfl⟩ | rfl
  · exact decide_eq_decide.2 Int.cast_lt.symm
  · have hbelow : (Number.int m : Number Exact).below (.real (.finite b)) =
        (m < b.floor || (m == b.floor && !Arith.isWhole (.finite b : Exact))) := rfl
    have hfloor := Rat.floor_le b
    have hnext := Rat.lt_floor_add_one b
    rw [hbelow, isWhole_finite, Bool.eq_iff_iff]
    simp only [Bool.or_eq_true, decide_eq_true_eq, Bool.and_eq_true, beq_iff_eq,
      Bool.not_eq_true', decide_eq_false_iff_not]
    constructor
    · rintro (hlt | ⟨rfl, hpart⟩)
      · exact (Int.cast_lt.2 hlt).trans_le hfloor
      · exact lt_of_le_of_ne hfloor (Ne.symm hpart)
    · intro hlt
      rcases (Rat.le_floor_iff.2 hlt.le).lt_or_eq with hbefore | rfl
      · exact .inl hbefore
      · exact .inr ⟨rfl, hlt.ne'⟩
  · exact decide_eq_decide.2 Rat.floor_lt_iff
  · rfl

theorem same_eq (hx : x.toReal = .ok (.finite a)) (hy : y.toReal = .ok (.finite b)) :
    x.same y = decide (a = b) := by
  have hwhole (n : Int) (b : Rat) :
      (Arith.isWhole (.finite b : Exact) && Arith.floor? (.finite b : Exact) == some n) =
        decide (b = n) := by
    have hfloor : Arith.floor? (.finite b : Exact) = some b.floor := rfl
    rw [isWhole_finite, hfloor, Bool.eq_iff_iff]
    simp only [Bool.and_eq_true, decide_eq_true_eq, beq_iff_eq, Option.some.injEq]
    constructor
    · rintro ⟨hb, rfl⟩
      exact hb
    · rintro rfl
      rw [Rat.floor_intCast]
      exact ⟨rfl, rfl⟩
  rcases toReal_eq_finite.1 hx with ⟨m, rfl, rfl⟩ | rfl <;>
    rcases toReal_eq_finite.1 hy with ⟨n, rfl, rfl⟩ | rfl
  · exact decide_eq_decide.2 Int.cast_inj.symm
  · exact (hwhole m b).trans (decide_eq_decide.2 eq_comm)
  · exact hwhole n a
  · rfl

end Number

/-- A scalar is a rational number. -/
def Scalar.IsRational (value : Scalar Exact) (a : Rat) : Prop :=
  ∃ x, Number.ofScalar value = .ok x ∧ x.toReal = .ok (.finite a)

namespace Scalar

theorem isAbove_of_numbers {α : Type} [Arith α] {value other : Scalar α} {x y : Number α}
    (hx : Number.ofScalar value = .ok x) (hy : Number.ofScalar other = .ok y) :
    value.isAbove other = .ok (y.below x) := by
  have hfirst : value.number? = some x := congrArg Except.toOption hx
  have hsecond : other.number? = some y := congrArg Except.toOption hy
  rw [isAbove]
  · rw [hfirst, hsecond]
  · rintro xs ys rfl
    exact nomatch hx
  · rintro first second rfl
    exact nomatch hx

variable {value other : Scalar Exact} {a b : Rat}

theorem isAbove_eq (hvalue : value.IsRational a) (hother : other.IsRational b) :
    value.isAbove other = .ok (decide (b < a)) := by
  obtain ⟨x, hx, hfirst⟩ := hvalue
  obtain ⟨y, hy, hsecond⟩ := hother
  rw [isAbove_of_numbers hx hy, Number.below_eq hsecond hfirst]

end Scalar

namespace Search

open Outcome

/-! ## Counting steps -/

/-- The number of values from a least one on, in steps, up to a limit. -/
def countWithin (least step limit : Rat) : Nat := (((limit - least) / step).floor + 1).toNat

section Counts

variable {least step : Rat}

theorem lt_countWithin (hstep : 0 < step) (limit : Rat) (k : Nat) :
    k < countWithin least step limit ↔ least + k * step ≤ limit := by
  rw [countWithin, Int.lt_toNat, Int.lt_add_one_iff, Rat.le_floor_iff, Int.cast_natCast,
    le_div_iff₀ hstep, le_sub_iff_add_le']

/-- Two limits let through as many values if no value lies between them. -/
theorem countWithin_eq_iff (hstep : 0 < step) (limit other : Rat) :
    countWithin least step limit = countWithin least step other ↔
      ∀ k : Nat, least + k * step ≤ limit ↔ least + k * step ≤ other := by
  constructor
  · intro heq k
    rw [← lt_countWithin hstep, heq, lt_countWithin hstep]
  · intro hlimits
    refine eq_of_forall_lt_iff fun k => ?_
    rw [lt_countWithin hstep, lt_countWithin hstep]
    exact hlimits k

end Counts

/-- What a value may exceed the greatest one by. -/
def slack : Rat := 1 / 10 ^ 10

theorem tolerance_eq : (tolerance : Exact) = .finite slack := by
  rw [tolerance, slack]
  exact congrArg Exact.finite (by norm_num)

/-! ## The values of a progression -/

/-- A progression steps through rational numbers. -/
structure Progression.Runs (values : Progression Exact) (least greatest step : Rat) : Prop where
  least_eq : values.least.toReal = .ok (.finite least)
  greatest_eq : values.greatest.toReal = .ok (.finite greatest)
  step_eq : values.step.toReal = .ok (.finite step)

namespace Progression

variable {values : Progression Exact} {least greatest step a : Rat} {x : Number Exact}

theorem Runs.exists_valueAfter (hruns : values.Runs least greatest step) (count : Nat) :
    ∃ x, values.valueAfter count = .ok x ∧ x.toReal = .ok (.finite (least + count * step)) := by
  have hcount : (Number.int count : Number Exact).toReal = .ok (.finite count) :=
    Number.toReal_eq_finite.2 (.inl ⟨count, rfl, (Int.cast_natCast count).symm⟩)
  obtain ⟨way, hway, hfar⟩ := Number.exists_mul hcount hruns.step_eq
  obtain ⟨x, hx, hvalue⟩ := Number.exists_add hruns.least_eq hfar
  refine ⟨x, ?_, hvalue⟩
  rw [valueAfter, hway]
  exact hx

theorem Runs.exists_limit (hruns : values.Runs least greatest step) :
    ∃ limit, values.greatest.add (.real tolerance) = .ok limit ∧
      limit.toReal = .ok (.finite (greatest + slack)) := by
  rw [tolerance_eq]
  exact Number.exists_add hruns.greatest_eq rfl

theorem Runs.isBeyond_eq (hruns : values.Runs least greatest step)
    (hx : x.toReal = .ok (.finite a)) :
    values.isBeyond x = .ok (decide (greatest + slack < a)) := by
  obtain ⟨limit, hlimit, hvalue⟩ := hruns.exists_limit
  rw [isBeyond, hlimit, ← Number.below_eq hvalue hx]
  rfl

theorem isRational_toScalar (hx : x.toReal = .ok (.finite a)) : x.toScalar.IsRational a := by
  cases x with
  | int n => exact ⟨.int n, rfl, hx⟩
  | real value => exact ⟨.real value, rfl, hx⟩

/-- What is listed of a rational number is the number, rounded. -/
theorem exists_listed (values : Progression Exact) (hx : x.toReal = .ok (.finite a)) :
    ∃ item, values.listed x = .ok item ∧ item.IsRational (Exact.roundTo 8 a) := by
  have hrounded : (x.roundTo 8).toReal = .ok (.finite (Exact.roundTo 8 a)) := by
    rcases Number.toReal_eq_finite.1 hx with ⟨n, rfl, rfl⟩ | rfl
    · rw [Exact.roundTo_intCast]
      rfl
    · rfl
  rw [listed]
  generalize x.roundTo 8 = rounded at hrounded ⊢
  generalize Exact.roundTo 8 a = value at hrounded ⊢
  have hplain := isRational_toScalar hrounded
  cases hkind : values.whole with
  | false => exact ⟨_, rfl, hplain⟩
  | true =>
      rcases Number.toReal_eq_finite.1 hrounded with ⟨n, rfl, rfl⟩ | rfl
      · exact ⟨_, rfl, hplain⟩
      · rw [if_pos rfl, hrounded]
        dsimp only [bind, Except.bind]
        cases hwhole : Arith.isWhole (.finite value : Exact) with
        | false => exact ⟨_, rfl, hplain⟩
        | true =>
            have hvalue := Number.toReal_eq_finite.2 (.inl ⟨_, rfl, of_decide_eq_true hwhole⟩)
            exact ⟨.int value.floor, rfl, .int value.floor, rfl, hvalue⟩

/-- An item is the value after a count of steps, rounded. -/
def IsAfter (least step : Rat) (item : Scalar Exact) (count : Nat) : Prop :=
  item.IsRational (Exact.roundTo 8 (least + count * step))

/-- From a count of steps on, a progression lists the values up to its limit, rounded. -/
theorem Runs.exists_valuesFrom (hruns : values.Runs least greatest step) (hstep : 0 < step)
    {fuel count : Nat} (hcount : count ≤ countWithin least step (greatest + slack))
    (hfuel : countWithin least step (greatest + slack) < fuel + count) :
    ∃ items, values.valuesFrom fuel count = .ok items ∧
      List.Forall₂ (IsAfter least step) items
        (List.range' count (countWithin least step (greatest + slack) - count)) := by
  have hwithin := @lt_countWithin least step hstep (greatest + slack)
  generalize countWithin least step (greatest + slack) = bound at hcount hfuel hwithin ⊢
  induction fuel generalizing count with
  | zero => omega
  | succ fuel ih =>
      obtain ⟨x, hx, hvalue⟩ := hruns.exists_valueAfter count
      have hbeyond : values.isBeyond x = .ok (decide (bound ≤ count)) := by
        rw [hruns.isBeyond_eq hvalue, decide_eq_decide.2 ?_]
        rw [← not_le, ← hwithin, not_lt]
      rw [valuesFrom]
      by_cases hlast : bound ≤ count
      · rw [decide_eq_true hlast] at hbeyond
        rw [Nat.sub_eq_zero_of_le hlast]
        exact ⟨[], bind_eq_ok.2 ⟨x, hx, bind_eq_ok.2 ⟨true, hbeyond, rfl⟩⟩, .nil⟩
      · rw [decide_eq_false hlast] at hbeyond
        obtain ⟨item, hitem, hafter⟩ := exists_listed values hvalue
        obtain ⟨rest, hrest, hitems⟩ := @ih (count + 1) (by omega) (by omega)
        have hleft : bound - count = (bound - (count + 1)) + 1 := by omega
        rw [hleft, List.range'_succ]
        exact ⟨item :: rest, bind_eq_ok.2 ⟨x, hx, bind_eq_ok.2 ⟨false, hbeyond,
          bind_eq_ok.2 ⟨item, hitem, bind_eq_ok.2 ⟨rest, hrest, rfl⟩⟩⟩⟩, .cons hafter hitems⟩

/-- The bound on the steps of a progression is beyond its limit. -/
theorem Runs.lt_stepBound (hruns : values.Runs least greatest step) (hstep : 0 < step) :
    countWithin least step (greatest + slack) < values.stepBound := by
  obtain ⟨limit, hlimit, hvalue⟩ := hruns.exists_limit
  obtain ⟨span, hspan, hwidth⟩ := Number.exists_sub hvalue hruns.least_eq
  have hsteps : values.stepsToLimit = .ok ((greatest + slack - least) / step).floor :=
    bind_eq_ok.2 ⟨limit, hlimit, bind_eq_ok.2 ⟨span, hspan,
      bind_eq_ok.2 ⟨_, Number.div_eq hwidth hruns.step_eq hstep, rfl⟩⟩⟩
  rw [stepBound, hsteps, countWithin]
  dsimp only [Except.toOption, Option.getD]
  generalize Nat.pow 2 1024 = large
  omega

theorem Runs.exists_toList (hruns : values.Runs least greatest step) (hstep : 0 < step) :
    ∃ items, values.toList = .ok items ∧
      List.Forall₂ (IsAfter least step) items
        (List.range (countWithin least step (greatest + slack))) := by
  have hfuel := hruns.lt_stepBound hstep
  rw [← Nat.add_zero values.stepBound] at hfuel
  rw [List.range_eq_range']
  exact hruns.exists_valuesFrom hstep (Nat.zero_le _) hfuel

end Progression

/-! ## Ranges -/

/-- The bounds of a range are rational numbers in order, and its step is a number. -/
structure Bounded (range : Range Exact) (least greatest : Rat) : Prop where
  least_is : range.least.IsRational least
  greatest_is : range.greatest.IsRational greatest
  ordered : least ≤ greatest
  step_is : ∃ step, Number.ofScalar range.step = .ok step

/-- The step between the values of a range: its own if that is positive, else one. -/
def gap (range : Range Exact) : Rat :=
  match Number.ofScalar range.step >>= Number.toReal with
  | .ok (.finite step) => if 0 < step then step else 1
  | _ => 1

theorem gap_pos (range : Range Exact) : 0 < gap range := by
  unfold gap
  split
  · split
    · assumption
    · exact one_pos
  · exact one_pos

section Bounded

variable {range : Range Exact} {least greatest : Rat}

/-- A step that is not positive counts as one. -/
theorem toReal_positive {own : Number Exact} {step : Rat} (hown : own.toReal = .ok (.finite step)) :
    (if (Number.int 0 : Number Exact).below own then own else .real Arith.one).toReal =
      .ok (.finite (if 0 < step then step else 1)) := by
  rw [Number.below_eq rfl hown, Int.cast_zero]
  by_cases hstep : 0 < step
  · rw [if_pos (decide_eq_true hstep), if_pos hstep, hown]
  · rw [if_neg (by simpa using hstep), if_neg hstep]
    rfl

theorem exists_stepOf {own : Number Exact} (hown : Number.ofScalar range.step = .ok own) :
    ∃ step, stepOf range = .ok step ∧ step.toReal = .ok (.finite (gap range)) := by
  refine ⟨_, bind_eq_ok.2 ⟨own, hown, rfl⟩, ?_⟩
  rw [gap, hown]
  cases own with
  | int n => exact toReal_positive rfl
  | real x =>
      cases x with
      | undefined => rfl
      | finite step => exact toReal_positive rfl

theorem Bounded.exists_progressionOf (hbounded : Bounded range least greatest) :
    ∃ values, progressionOf range = .ok values ∧ values.Runs least greatest (gap range) := by
  obtain ⟨first, hfirst, hleast⟩ := hbounded.least_is
  obtain ⟨last, hlast, hgreatest⟩ := hbounded.greatest_is
  obtain ⟨own, hown⟩ := hbounded.step_is
  obtain ⟨step, hstep, hgap⟩ := exists_stepOf hown
  exact ⟨_, bind_eq_ok.2 ⟨step, hstep, bind_eq_ok.2 ⟨first, hfirst, bind_eq_ok.2 ⟨last, hlast,
    rfl⟩⟩⟩, hleast, hgreatest, hgap⟩

/-- A range lists its values up to the tolerance, rounded. -/
theorem Bounded.exists_expand (hbounded : Bounded range least greatest) :
    ∃ items, expand range = .ok items ∧
      List.Forall₂ (Progression.IsAfter least (gap range)) items
        (List.range (countWithin least (gap range) (greatest + slack))) := by
  obtain ⟨values, hvalues, hruns⟩ := hbounded.exists_progressionOf
  obtain ⟨items, hitems, hafter⟩ := hruns.exists_toList (gap_pos range)
  have habove : range.least.isAbove range.greatest = .ok false := by
    rw [Scalar.isAbove_eq hbounded.least_is hbounded.greatest_is,
      decide_eq_false hbounded.ordered.not_gt]
  exact ⟨items, bind_eq_ok.2 ⟨false, habove, bind_eq_ok.2 ⟨values, hvalues, hitems⟩⟩, hafter⟩

/-- A range counts its values up to the tolerance times the step. -/
theorem Bounded.countOf_eq (hbounded : Bounded range least greatest) :
    countOf range =
      .ok (countWithin least (gap range) (greatest + slack * gap range)) := by
  obtain ⟨first, hfirst, hleast⟩ := hbounded.least_is
  obtain ⟨last, hlast, hgreatest⟩ := hbounded.greatest_is
  obtain ⟨own, hown⟩ := hbounded.step_is
  obtain ⟨step, hstep, hgap⟩ := exists_stepOf hown
  obtain ⟨span, hspan, hwidth⟩ := Number.exists_sub hgreatest hleast
  have hsteps := Number.div_eq hwidth hgap (gap_pos range)
  have hshift : (greatest - least) / gap range + slack =
      (greatest + slack * gap range - least) / gap range := by
    rw [eq_div_iff (gap_pos range).ne', add_mul, div_mul_cancel₀ _ (gap_pos range).ne']
    ring
  rw [countWithin, ← hshift]
  have hfloor : Number.floorOf (.finite ((greatest - least) / gap range) + tolerance : Exact) =
      .ok ((greatest - least) / gap range + slack).floor := by
    rw [tolerance_eq]
    rfl
  exact bind_eq_ok.2 ⟨last, hlast, bind_eq_ok.2 ⟨first, hfirst, bind_eq_ok.2 ⟨span, hspan,
    bind_eq_ok.2 ⟨step, hstep, bind_eq_ok.2 ⟨_, hsteps, bind_eq_ok.2 ⟨_, hfloor, rfl⟩⟩⟩⟩⟩⟩

/-- No value lies between the end of a list and the end of a count. -/
def Clear (least greatest step : Rat) : Prop :=
  ∀ k : Nat, least + k * step ≤ greatest + slack ↔ least + k * step ≤ greatest + slack * step

/-- A range counts as many values as it lists, if and only if none lies between the two ends. -/
theorem Bounded.length_eq_countOf_iff (hbounded : Bounded range least greatest) :
    ∃ items count, expand range = .ok items ∧ countOf range = .ok count ∧
      (items.length = count ↔ Clear least greatest (gap range)) := by
  obtain ⟨items, hitems, hafter⟩ := hbounded.exists_expand
  refine ⟨items, _, hitems, hbounded.countOf_eq, ?_⟩
  rw [hafter.length_eq, List.length_range]
  exact countWithin_eq_iff (gap_pos range) _ _

end Bounded

/-- A range is clear if its bounds are a whole number of steps apart, which are longer than the
tolerance. -/
theorem clear_of_multiple {step : Rat} (hstep : slack < step) (least : Rat) (n : Nat) :
    Clear least (least + n * step) step := by
  have hslack : 0 < slack := by norm_num [slack]
  have hsmall : slack * step < step := by
    have hone : slack < 1 := by norm_num [slack]
    nlinarith
  intro k
  rcases le_or_gt k n with hle | hgt
  · have hvalue : (k : Rat) * step ≤ n * step := by
      have hcast : (k : Rat) ≤ n := Nat.cast_le.2 hle
      nlinarith
    have hpositive : 0 < slack * step := mul_pos hslack (hslack.trans hstep)
    constructor <;> intro _ <;> linarith
  · have hvalue : (n : Rat) * step + step ≤ k * step := by
      have hcast : (n : Rat) + 1 ≤ k := by exact_mod_cast hgt
      nlinarith
    constructor <;> intro hwithin <;> linarith

/-- A range with steps of one is clear. -/
theorem clear_one (least greatest : Rat) : Clear least greatest 1 := by
  intro k
  rw [mul_one slack]

/-- Where the enabled ranges are clear, the grid has as many combinations as a search of these ranges
compares with its cap. -/
theorem gridSize_eq_size {ranges : List (Range Exact)}
    (hranges : ∀ range ∈ ranges, range.enabled = true →
      ∃ least greatest, Bounded range least greatest ∧ Clear least greatest (gap range)) :
    ∃ axes, axesOf ranges = .ok axes ∧ gridSize ranges = .ok (lengthProduct axes) ∧
      size axes = lengthProduct axes := by
  suffices hgrid : ∃ axes, axesOf ranges = .ok axes ∧
      gridSize ranges = .ok (lengthProduct axes) by
    obtain ⟨axes, haxes, hsize⟩ := hgrid
    exact ⟨axes, haxes, hsize, size_eq axes⟩
  induction ranges with
  | nil => exact ⟨[], rfl, rfl⟩
  | cons range rest ih =>
      obtain ⟨hrange, hrest⟩ := List.forall_mem_cons.1 hranges
      obtain ⟨axes, haxes, hsize⟩ := ih hrest
      rw [gridSize]
      cases henabled : range.enabled with
      | false =>
          refine ⟨axes, ?_, bind_eq_ok.2 ⟨1, rfl, bind_eq_ok.2 ⟨_, hsize, ?_⟩⟩⟩
          · rw [axesOf_eq_ok, List.filter_cons_of_neg (by simp [henabled])]
            exact axesOf_eq_ok.1 haxes
          · rw [Nat.one_mul]
            rfl
      | true =>
          obtain ⟨least, greatest, hbounded, hclear⟩ := hrange henabled
          obtain ⟨items, count, hitems, hcount, hlength⟩ := hbounded.length_eq_countOf_iff
          refine ⟨(range.name, items) :: axes, ?_, bind_eq_ok.2 ⟨count, hcount,
            bind_eq_ok.2 ⟨_, hsize, ?_⟩⟩⟩
          · rw [axesOf_eq_ok, List.filter_cons_of_pos henabled]
            exact .cons ⟨rfl, hitems⟩ (axesOf_eq_ok.1 haxes)
          · rw [← hlength.2 hclear]
            rfl

/-- Lengths from 5 to 20, widths from 0 to 0.3, and a range that is not searched. -/
def mixedRanges : List (Range Exact) :=
  [⟨"length", .int 5, .int 20, .int 5, "int", "", true⟩,
    ⟨"width", .real (.finite 0), .real (.finite (3 / 10)), .real (.finite (1 / 10)), "float", "",
      true⟩,
    ⟨"unused", .int 3, .int 2, .missing, "int", "", false⟩]

theorem gridSize_eq_size_mixed :
    (∃ axes, axesOf mixedRanges = .ok axes ∧ gridSize mixedRanges = .ok (lengthProduct axes) ∧
      size axes = lengthProduct axes) ∧ gridSize mixedRanges = .ok 16 := by
  have hlengths : gap ⟨"length", .int 5, .int 20, .int 5, "int", "", true⟩ = 5 := by
    decide +kernel
  have hwidths : gap ⟨"width", .real (.finite 0), .real (.finite (3 / 10)),
      .real (.finite (1 / 10)), "float", "", true⟩ = 1 / 10 := by
    decide +kernel
  have hfive := clear_of_multiple (show slack < 5 by norm_num [slack]) 5 3
  have htenth := clear_of_multiple (show slack < 1 / 10 by norm_num [slack]) 0 3
  norm_num at hfive htenth
  refine ⟨gridSize_eq_size ?_, toOption_eq_some.1 (by decide +kernel)⟩
  rw [mixedRanges]
  simp only [List.forall_mem_cons]
  refine ⟨fun _ => ⟨5, 20, ⟨⟨_, rfl, rfl⟩, ⟨_, rfl, rfl⟩, by norm_num, _, rfl⟩, ?_⟩,
    fun _ => ⟨0, 3 / 10, ⟨⟨_, rfl, rfl⟩, ⟨_, rfl, rfl⟩, by norm_num, _, rfl⟩, ?_⟩, nofun, nofun⟩
  · rw [hlengths]
    exact hfive
  · rw [hwidths]
    exact htenth

/-- A range whose greatest value is less than three of its steps, by less than the tolerance. -/
def shortRange : Range Exact :=
  ⟨"width", .real (.finite 0), .real (.finite (29999999995 / 10 ^ 11)), .real (.finite (1 / 10)),
    "float", "", true⟩

/-- The range lists four values and counts three. -/
theorem shortRange_miscounted :
    Bounded shortRange 0 (29999999995 / 10 ^ 11) ∧ gridSize [shortRange] = .ok 3 ∧
      ∃ axes, axesOf [shortRange] = .ok axes ∧ lengthProduct axes = 4 := by
  have hbounded : Bounded shortRange 0 (29999999995 / 10 ^ 11) :=
    ⟨⟨_, rfl, rfl⟩, ⟨_, rfl, rfl⟩, by norm_num, _, rfl⟩
  have hthree : gridSize [shortRange] = .ok 3 := toOption_eq_some.1 (by decide +kernel)
  have hfour : countWithin 0 (gap shortRange) (29999999995 / 10 ^ 11 + slack) = 4 := by
    decide +kernel
  obtain ⟨items, hitems, hafter⟩ := hbounded.exists_expand
  refine ⟨hbounded, hthree, [("width", items)], axesOf_eq_ok.2 (.cons ⟨rfl, hitems⟩ .nil), ?_⟩
  rw [lengthProduct, List.map_singleton, List.prod_singleton, hafter.length_eq, List.length_range,
    hfour]

end Search

end Backtest
