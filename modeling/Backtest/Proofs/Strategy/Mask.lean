import Backtest.Expr.Operator
import Backtest.Proofs.Decimal.Lawful
import Backtest.Proofs.Strategy.Ready

/-!
# The rules of presets without their mask

Over series that are defined everywhere the mask of a preset is open from the second bar on, and a
crossing closes itself where its series is undefined.  So the signals of a preset are those of
conditions without a mask, as far as a simulation sees them: two sides (`sides_sameFromSecond`),
three series in order (`order_sameFromSecond`) and crossings (`Lawful.truthAt_ready_crossover`).
-/

namespace Backtest

open Arith Backtest.Expr Script

variable {α : Type} [Arith α]

/-! ## Two sides -/

variable {bars bar : Nat} {xs ys zs : Series α}

omit [Arith α] in
theorem truthAt_test (test : α → α → Bool) (hxs : xs.length = bars) (hys : ys.length = bars)
    (hbar : bar < bars) : ∃ x y, xs[bar]? = some x ∧ ys[bar]? = some y ∧
      truthAt bar (List.zipWith test xs ys) = test x y := by
  have hx := List.getElem?_eq_getElem (hxs.symm ▸ hbar)
  have hy := List.getElem?_eq_getElem (hys.symm ▸ hbar)
  refine ⟨_, _, hx, hy, ?_⟩
  rw [truthAt, List.getElem?_zipWith, hx, hy]
  rfl

/-- One series is not above another one where it is below it. -/
theorem Lawful.not_above_of_below (hlaws : Lawful α) (hxs : xs.length = bars)
    (hys : ys.length = bars) (hbar : bar < bars)
    (hbelow : truthAt bar (List.zipWith Comparison.below.test xs ys) = true) :
    truthAt bar (List.zipWith Comparison.above.test xs ys) = false := by
  obtain ⟨x, y, hx, hy, htest⟩ := truthAt_test Comparison.below.test hxs hys hbar
  obtain ⟨x', y', hx', hy', habove⟩ := truthAt_test Comparison.above.test hxs hys hbar
  rw [hx] at hx'
  rw [hy] at hy'
  obtain ⟨rfl⟩ := hx'
  obtain ⟨rfl⟩ := hy'
  rw [habove]
  exact hlaws.less_asymm x y (htest.symm.trans hbelow)

/-- The mask of a branch with no branch before it. -/
theorem truthAt_active_first {holds : Flags} (hholds : holds.length = bars) (hbar : bar < bars) :
    truthAt bar (Run.active none (List.replicate bars false) holds) = truthAt bar holds := by
  have hnone : ∀ flags : Flags, none = some flags → flags.length = bars := nofun
  rw [truthAt_active hnone List.length_replicate hholds hbar, truthAt_replicate false hbar]
  rfl

omit [Arith α] in
theorem Preset.length_readyWhere {ok : Flags} (hok : ok.length = bars) (test : α → α → Bool)
    (hxs : xs.length = bars) (hys : ys.length = bars) :
    (readyWhere ok test xs ys).length = bars :=
  Series.length_zipWith_of hok (Series.length_zipWith_of hxs hys)

omit [Arith α] in
theorem Preset.truthAt_readyWhere {ok : Flags} (hok : ok.length = bars) (test : α → α → Bool)
    (hxs : xs.length = bars) (hys : ys.length = bars) (hbar : bar < bars) :
    truthAt bar (readyWhere ok test xs ys) =
      (truthAt bar ok && truthAt bar (List.zipWith test xs ys)) :=
  truthAt_zipWith _ hok (Series.length_zipWith_of hxs hys) hbar

/-- The sides of two series that are always defined are the two rules that compare them. -/
theorem sides_sameFromSecond (hxs : xs.length = bars) (hys : ys.length = bars)
    (hdefined : ∀ zs ∈ [xs, ys], zs.Defined) :
    List.Forall₂ (SameFromSecond bars)
      [(.openLong, Run.active none (List.replicate bars false)
          (List.zipWith Comparison.above.test xs ys)),
        (.openShort, Run.active none (List.replicate bars false)
          (List.zipWith Comparison.below.test xs ys))]
      (Preset.sides xs ys).signals := by
  have hlength : ∀ zs ∈ [xs, ys], zs.length = bars := by simp [hxs, hys]
  have hready := Preset.length_ready (List.cons_ne_nil _ _) hlength
  have hmask (test : α → α → Bool) (bar : Nat) (hbar : bar + 1 < bars) :
      truthAt (bar + 1) (Run.active none (List.replicate bars false) (List.zipWith test xs ys)) =
        truthAt (bar + 1) (Preset.readyWhere (Preset.ready [xs, ys]) test xs ys) := by
    rw [truthAt_active_first (Series.length_zipWith_of hxs hys) hbar,
      Preset.truthAt_readyWhere hready test hxs hys hbar,
      Preset.truthAt_ready_of_defined (List.cons_ne_nil _ _) hlength hdefined hbar, Bool.true_and]
  exact .cons ⟨rfl, hmask _⟩ (.cons ⟨rfl, hmask _⟩ .nil)

/-! ## Three series in order -/

/-- The rules for three averages: long in falling order, short in rising order, else flat. -/
def Preset.order (xs ys zs : Series α) : Rules :=
  let ok := ready [xs, ys, zs]
  let rising := readyWhere (readyWhere ok above xs ys) above ys zs
  let falling := readyWhere (readyWhere ok Arith.less xs ys) Arith.less ys zs
  let neither := List.zipWith (fun ready sides => ready && !sides) ok
    (List.zipWith (· || ·) rising falling)
  ⟨[(.openLong, rising), (.openShort, falling), (.closeAny, neither)], false⟩

/-- Where two comparisons hold. -/
def bothWhere (test : α → α → Bool) (xs ys zs : Series α) : Flags :=
  List.zipWith (· && ·) (List.zipWith test xs ys) (List.zipWith test ys zs)

omit [Arith α] in
theorem length_bothWhere (test : α → α → Bool) (hxs : xs.length = bars) (hys : ys.length = bars)
    (hzs : zs.length = bars) : (bothWhere test xs ys zs).length = bars :=
  Series.length_zipWith_of (Series.length_zipWith_of hxs hys) (Series.length_zipWith_of hys hzs)

/-- Three series do not fall in order where they rise in order. -/
theorem Lawful.not_falls_of_rises (hlaws : Lawful α) (hxs : xs.length = bars)
    (hys : ys.length = bars) (hzs : zs.length = bars) (hbar : bar < bars)
    (hrises : truthAt bar (bothWhere Comparison.below.test xs ys zs) = true) :
    truthAt bar (bothWhere Comparison.above.test xs ys zs) = false := by
  have hxy := Series.length_zipWith_of (f := Comparison.below.test) hxs hys
  have hyz := Series.length_zipWith_of (f := Comparison.below.test) hys hzs
  rw [bothWhere, truthAt_zipWith _ hxy hyz hbar, Bool.and_eq_true] at hrises
  have hnot := hlaws.not_above_of_below hxs hys hbar hrises.1
  rw [bothWhere, truthAt_zipWith _ (Series.length_zipWith_of hxs hys)
    (Series.length_zipWith_of hys hzs) hbar, hnot, Bool.false_and]

/-- Three series that are always defined have the branches of a chain as their rules. -/
theorem order_sameFromSecond (hlaws : Lawful α) (hxs : xs.length = bars) (hys : ys.length = bars)
    (hzs : zs.length = bars) (hdefined : ∀ others ∈ [xs, ys, zs], others.Defined) :
    let first := List.replicate bars false
    let falls := bothWhere Comparison.above.test xs ys zs
    let rises := bothWhere Comparison.below.test xs ys zs
    let second := List.zipWith (· || ·) first falls
    List.Forall₂ (SameFromSecond bars)
      [(.openLong, Run.active none first falls), (.openShort, Run.active none second rises),
        (.closeAny, Run.active none (List.zipWith (· || ·) second rises)
          (List.replicate bars true))]
      (Preset.order xs ys zs).signals := by
  intro first falls rises second
  have hlength : ∀ others ∈ [xs, ys, zs], others.length = bars := by simp [hxs, hys, hzs]
  have hready := Preset.length_ready (List.cons_ne_nil _ _) hlength
  have hmask (test : α → α → Bool) := Preset.length_readyWhere
    (Preset.length_readyWhere hready test hxs hys) test hys hzs
  -- The mask is open, so the two sides of the preset are where the series fall and where they rise.
  have hside (test : α → α → Bool) {bar : Nat} (hbar : bar + 1 < bars) :
      truthAt (bar + 1) (Preset.readyWhere (Preset.readyWhere (Preset.ready [xs, ys, zs]) test xs ys)
        test ys zs) = truthAt (bar + 1) (bothWhere test xs ys zs) := by
    rw [Preset.truthAt_readyWhere (Preset.length_readyWhere hready test hxs hys) test hys hzs hbar,
      Preset.truthAt_readyWhere hready test hxs hys hbar,
      Preset.truthAt_ready_of_defined (List.cons_ne_nil _ _) hlength hdefined hbar, Bool.true_and,
      bothWhere, truthAt_zipWith _ (Series.length_zipWith_of hxs hys)
        (Series.length_zipWith_of hys hzs) hbar]
  have hfirst : first.length = bars := List.length_replicate
  have hfalls : falls.length = bars := length_bothWhere _ hxs hys hzs
  have hrises : rises.length = bars := length_bothWhere _ hxs hys hzs
  have hsecond : second.length = bars := Series.length_zipWith_of hfirst hfalls
  have hnone : ∀ flags : Flags, none = some flags → flags.length = bars := nofun
  have htaken {bar : Nat} (hbar : bar < bars) : truthAt bar second = truthAt bar falls := by
    rw [truthAt_zipWith _ hfirst hfalls hbar, truthAt_replicate false hbar, Bool.false_or]
  refine .cons ⟨rfl, fun bar hbar => ?_⟩
    (.cons ⟨rfl, fun bar hbar => ?_⟩ (.cons ⟨rfl, fun bar hbar => ?_⟩ .nil))
  · rw [truthAt_active_first hfalls hbar]
    exact (hside _ hbar).symm
  · rw [truthAt_active hnone hsecond hrises hbar, htaken hbar, Option.all_none, Bool.true_and]
    refine Eq.trans ?_ (hside Comparison.below.test hbar).symm
    change (!truthAt (bar + 1) falls && truthAt (bar + 1) rises) = truthAt (bar + 1) rises
    cases hrise : truthAt (bar + 1) rises with
    | false => exact Bool.and_false _
    | true =>
        have hfall : truthAt (bar + 1) falls = false :=
          hlaws.not_falls_of_rises hxs hys hzs hbar hrise
        rw [hfall]
        rfl
  · rw [truthAt_active hnone (Series.length_zipWith_of hsecond hrises) List.length_replicate hbar,
      truthAt_zipWith _ hsecond hrises hbar, htaken hbar, truthAt_replicate true hbar,
      Option.all_none, Bool.true_and, Bool.and_true]
    change _ = truthAt (bar + 1) (List.zipWith _ _ (List.zipWith _ _ _))
    rw [truthAt_zipWith _ hready (Series.length_zipWith_of (hmask _) (hmask _)) hbar,
      truthAt_zipWith _ (hmask _) (hmask _) hbar, hside _ hbar, hside _ hbar,
      Preset.truthAt_ready_of_defined (List.cons_ne_nil _ _) hlength hdefined hbar, Bool.true_and]
    rfl

/-! ## Crossings -/

/-- A test of a bar and the bar before that fails unless the first series is defined at both. -/
def SeesBoth (test : Option (α × α) → α × α → Bool) : Prop :=
  ∀ last now, test last now = true →
    ∃ before, last = some before ∧ isNaN before.1 = false ∧ isNaN now.1 = false

theorem SeesBoth.defined {test : Option (α × α) → α × α → Bool} (htest : SeesBoth test)
    (hholds : truthAt (bar + 1) (Series.stepwise test (xs.zip ys)) = true) :
    xs.definedAt bar = true ∧ xs.definedAt (bar + 1) = true := by
  rw [truthAt, Series.getElem?_stepwise] at hholds
  cases hnow : (xs.zip ys)[bar + 1]? with
  | none =>
      rw [hnow] at hholds
      cases hholds
  | some now =>
      rw [hnow] at hholds
      obtain ⟨before, hbefore, hdefined, hnowDefined⟩ := htest _ _ hholds
      have hx := (List.getElem?_zip_eq_some.1 hbefore).1
      have hx' := (List.getElem?_zip_eq_some.1 hnow).1
      rw [Series.definedAt, Series.definedAt, hx, hx']
      exact ⟨by simp [hdefined], by simp [hnowDefined]⟩

/-- A test that sees both bars needs no mask of the bars at which its series is ready. -/
theorem SeesBoth.truthAt_ready {test : Option (α × α) → α × α → Bool} (htest : SeesBoth test)
    (hxs : xs.length = bars) (hys : ys.length = bars) (hbar : bar + 1 < bars) :
    truthAt (bar + 1)
        (List.zipWith (· && ·) (Preset.ready [xs]) (Series.stepwise test (xs.zip ys))) =
      truthAt (bar + 1) (Series.stepwise test (xs.zip ys)) := by
  have hlength : ∀ zs ∈ [xs], zs.length = bars := by simp [hxs]
  have hcross : (Series.stepwise test (xs.zip ys)).length = bars := by
    rw [Series.length_stepwise, List.length_zip, hxs, hys, Nat.min_self]
  rw [truthAt_zipWith _ (Preset.length_ready (List.cons_ne_nil _ _) hlength) hcross hbar]
  cases hholds : truthAt (bar + 1) (Series.stepwise test (xs.zip ys)) with
  | false => exact Bool.and_false _
  | true =>
      obtain ⟨hbefore, hnow⟩ := htest.defined hholds
      rw [Preset.truthAt_ready (List.cons_ne_nil _ _) hlength hbar, List.all_cons, List.all_cons,
        hbefore, hnow]
      rfl

theorem Lawful.truthAt_ready_crossover (hlaws : Lawful α) (hxs : xs.length = bars)
    (hys : ys.length = bars) (hbar : bar + 1 < bars) :
    truthAt (bar + 1)
        (List.zipWith (· && ·) (Preset.ready [xs]) (Series.crossover xs ys)) =
      truthAt (bar + 1) (Series.crossover xs ys) := by
  rw [Series.crossover]
  refine SeesBoth.truthAt_ready (fun last now hholds => ?_) hxs hys hbar
  cases last with
  | none => cases hholds
  | some before =>
      obtain ⟨hbefore, hnow⟩ := Bool.and_eq_true_iff.1 hholds
      exact ⟨before, rfl, (hlaws.less_defined _ _ hbefore).1,
        (hlaws.atMost_defined _ _ hnow).2⟩

theorem Lawful.truthAt_ready_crossunder (hlaws : Lawful α) (hxs : xs.length = bars)
    (hys : ys.length = bars) (hbar : bar + 1 < bars) :
    truthAt (bar + 1)
        (List.zipWith (· && ·) (Preset.ready [xs]) (Series.crossunder xs ys)) =
      truthAt (bar + 1) (Series.crossunder xs ys) := by
  rw [Series.crossunder]
  refine SeesBoth.truthAt_ready (fun last now hholds => ?_) hxs hys hbar
  cases last with
  | none => cases hholds
  | some before =>
      obtain ⟨hbefore, hnow⟩ := Bool.and_eq_true_iff.1 hholds
      exact ⟨before, rfl, (hlaws.less_defined _ _ hbefore).2,
        (hlaws.atMost_defined _ _ hnow).1⟩

end Backtest
