import Backtest.Expr.Operator
import Backtest.Proofs.Decimal.Order
import Backtest.Proofs.Strategy.Ready
import Backtest.Series.Extreme
import Mathlib.Algebra.BigOperators.Intervals

/-!
# Crossings between two bars

A crossing is a step from one side of a series to the other one, and being equal counts for one of
the sides only.  Over bars at which both series are defined the sides are complementary, so steps to
one side and steps back alternate: whoever starts on one side and ends on the other has gone over
once more than back (`card_turns_add`).  Hence crossings are neither missed nor invented
(`crossings_between`).
-/

namespace Backtest.Series

open Arith Backtest.Expr Script

variable {α : Type} [Arith α]

/-! ## Turns -/

/-- The bars after `first`, up to `last`, at which one test holds right after another one. -/
def turns (before after : Nat → Bool) (first last : Nat) : Finset Nat :=
  {bar ∈ Finset.Ioc first last | before (bar - 1) = true ∧ after bar = true}

/-- The bars after `first`, up to `last`, that are marked. -/
def marked (flags : Flags) (first last : Nat) : Finset Nat :=
  {bar ∈ Finset.Ioc first last | truthAt bar flags = true}

/-- Marks of the steps from one side to the other one, between two bars. -/
structure MarksCrossings (flags : Flags) (before after : Nat → Bool) (first last : Nat) :
    Prop where
  crosses : before first = true → after last = true → (marked flags first last).Nonempty
  count : before first = true → after last = true →
    (marked flags first last).card = (turns after before first last).card + 1
  stays_before : (∀ bar ∈ Finset.Icc first last, before bar = true) → marked flags first last = ∅
  stays_after : (∀ bar ∈ Finset.Icc first last, after bar = true) → marked flags first last = ∅

section Turns

variable {before after : Nat → Bool} {flags : Flags} {first last : Nat}

theorem card_turns_succ (before after : Nat → Bool) (hle : first ≤ last) :
    (turns before after first (last + 1)).card =
      (turns before after first last).card + (before last && after (last + 1)).toNat := by
  rw [turns, Finset.card_filter, Finset.sum_Ioc_succ_top hle, ← Finset.card_filter]
  rw [Nat.add_sub_cancel]
  cases before last <;> cases after (last + 1) <;> rfl

/-- Between complementary sides, turns to the one and to the other side alternate. -/
theorem card_turns_add (hle : first ≤ last)
    (hsides : ∀ bar, first ≤ bar → bar ≤ last → after bar = !before bar) :
    (turns before after first last).card + (before last).toNat =
      (turns after before first last).card + (before first).toNat := by
  induction last, hle using Nat.le_induction with
  | base => rw [turns, turns, Finset.Ioc_self, Finset.filter_empty, Finset.filter_empty]
  | succ last hle ih =>
      have hearlier := ih fun bar hfirst hlast => hsides bar hfirst (Nat.le_succ_of_le hlast)
      rw [card_turns_succ _ _ hle, card_turns_succ _ _ hle, hsides last hle (Nat.le_succ last),
        hsides (last + 1) (Nat.le_succ_of_le hle) (Nat.le_refl _)]
      -- The side before the last step and the side after it decide which turn there is.
      cases hlast : before last <;> cases before (last + 1) <;>
        simp only [hlast, Bool.not_false, Bool.not_true, Bool.and_false, Bool.and_true,
          Bool.toNat_false, Bool.toNat_true] at hearlier ⊢ <;> omega

/-- Marks of steps between complementary sides are crossings. -/
theorem marksCrossings (hmarks : ∀ bar, truthAt (bar + 1) flags = (before bar && after (bar + 1)))
    (hlt : first < last)
    (hsides : ∀ bar, first ≤ bar → bar ≤ last → after bar = !before bar) :
    MarksCrossings flags before after first last := by
  have hmarked : marked flags first last = turns before after first last := by
    refine Finset.filter_congr fun bar hbar => ?_
    obtain ⟨earlier, rfl⟩ := Nat.exists_eq_add_of_lt (Finset.mem_Ioc.1 hbar).1
    rw [hmarks, Bool.and_eq_true, Nat.add_sub_cancel]
  have hcount (hfirst : before first = true) (hlast : after last = true) :
      (turns before after first last).card = (turns after before first last).card + 1 := by
    have hbalance := card_turns_add hlt.le hsides
    rw [hsides last hlt.le (Nat.le_refl _), Bool.not_eq_true'] at hlast
    rwa [hfirst, hlast] at hbalance
  have hnone (hturn : ∀ bar ∈ Finset.Ioc first last,
      ¬ (before (bar - 1) = true ∧ after bar = true)) : turns before after first last = ∅ :=
    Finset.filter_eq_empty_iff.2 fun bar hbar => hturn bar hbar
  rw [← hmarked] at hcount hnone
  refine ⟨fun hfirst hlast => ?_, hcount, fun hstays => hnone fun bar hbar hturn => ?_,
    fun hstays => hnone fun bar hbar hturn => ?_⟩
  · rw [← Finset.card_pos, hcount hfirst hlast]
    exact Nat.succ_pos _
  · obtain ⟨hfirst, hlast⟩ := Finset.mem_Ioc.1 hbar
    have hafter := hturn.2
    rw [hsides bar hfirst.le hlast, hstays bar (Finset.mem_Icc.2 ⟨hfirst.le, hlast⟩)] at hafter
    cases hafter
  · obtain ⟨hfirst, hlast⟩ := Finset.mem_Ioc.1 hbar
    have hafter := hstays (bar - 1) (Finset.mem_Icc.2 ⟨by omega, by omega⟩)
    rw [hsides (bar - 1) (by omega) (by omega), hturn.1] at hafter
    cases hafter

end Turns

/-! ## Crossings of two series -/

/-- A comparison of two series at a bar. -/
def comparedAt (kind : Comparison) (xs ys : Series α) (bar : Nat) : Bool :=
  truthAt bar (List.zipWith kind.test xs ys)

variable {xs ys : Series α} {bar first last : Nat}

/-- A test of two bars that compares the series at the first of them and at the second. -/
theorem truthAt_succ_stepwise (earlier later : Comparison) (xs ys : Series α) (bar : Nat) :
    truthAt (bar + 1) (stepwise (fun last bar => match last with
      | none => false
      | some (x, y) => earlier.test x y && later.test bar.1 bar.2) (xs.zip ys)) =
      (comparedAt earlier xs ys bar && comparedAt later xs ys (bar + 1)) := by
  rw [truthAt, getElem?_stepwise, comparedAt, comparedAt, truthAt, truthAt, List.zip,
    List.getElem?_zipWith, List.getElem?_zipWith, List.getElem?_zipWith, List.getElem?_zipWith]
  cases xs[bar]? <;> cases ys[bar]? <;> cases xs[bar + 1]? <;> cases ys[bar + 1]? <;> simp

theorem truthAt_succ_crossover (xs ys : Series α) (bar : Nat) :
    truthAt (bar + 1) (crossover xs ys) =
      (comparedAt .below xs ys bar && comparedAt .atLeast xs ys (bar + 1)) :=
  truthAt_succ_stepwise .below .atLeast xs ys bar

theorem truthAt_succ_crossunder (xs ys : Series α) (bar : Nat) :
    truthAt (bar + 1) (crossunder xs ys) =
      (comparedAt .above xs ys bar && comparedAt .atMost xs ys (bar + 1)) :=
  truthAt_succ_stepwise .above .atMost xs ys bar

/-- Both series are defined at all bars from `first` to `last`. -/
def DefinedBetween (xs ys : Series α) (first last : Nat) : Prop :=
  ∀ bar, first ≤ bar → bar ≤ last → definedAt bar xs = true ∧ definedAt bar ys = true

/-- Where both series are defined, two comparisons that exclude each other are complementary. -/
theorem DefinedBetween.comparedAt_eq_not {earlier later : Comparison}
    (hdefined : DefinedBetween xs ys first last)
    (hnot : ∀ x y : α, isNaN x = false → isNaN y = false → later.test x y = !earlier.test x y)
    (bar : Nat) (hfirst : first ≤ bar) (hlast : bar ≤ last) :
    comparedAt later xs ys bar = !comparedAt earlier xs ys bar := by
  obtain ⟨hxs, hys⟩ := hdefined bar hfirst hlast
  obtain ⟨x, hx, hxdefined⟩ := (Option.any_eq_true _ _).1 hxs
  obtain ⟨y, hy, hydefined⟩ := (Option.any_eq_true _ _).1 hys
  rw [Bool.not_eq_true'] at hxdefined hydefined
  rw [comparedAt, comparedAt, truthAt, truthAt, List.getElem?_zipWith, List.getElem?_zipWith, hx,
    hy]
  exact hnot x y hxdefined hydefined

/-- No crossing between two bars is missed or invented.  A series that comes from below another one
to it or above it has crossed over once more than it has returned below, and a series that stays on
one side has not crossed at all; the same holds from above. -/
theorem crossings_between (hordered : Ordered α) (hlt : first < last)
    (hdefined : DefinedBetween xs ys first last) :
    MarksCrossings (crossover xs ys) (comparedAt .below xs ys) (comparedAt .atLeast xs ys)
        first last ∧
      MarksCrossings (crossunder xs ys) (comparedAt .above xs ys) (comparedAt .atMost xs ys)
        first last := by
  constructor
  · refine marksCrossings (truthAt_succ_crossover xs ys) hlt (hdefined.comparedAt_eq_not ?_)
    intro x y hx hy
    change atMost y x = !less x y
    rw [hordered.less_eq_not_atMost hx hy, Bool.not_not]
  · refine marksCrossings (truthAt_succ_crossunder xs ys) hlt (hdefined.comparedAt_eq_not ?_)
    intro x y hx hy
    change atMost x y = !less y x
    rw [hordered.less_eq_not_atMost hy hx, Bool.not_not]

/-- A series that touches two, falls back below it and goes above it. -/
def touching : Series Float := [ofNat 1, ofNat 2, ofNat 1, ofNat 3]

/-- The touch counts as a crossing, and the way back below makes room for another one. -/
theorem crossings_between_touching :
    Ordered Float ∧ 0 < 3 ∧ DefinedBetween touching (List.replicate 4 (ofNat 2)) 0 3 ∧
      comparedAt .below touching (List.replicate 4 (ofNat 2)) 0 = true ∧
      comparedAt .atLeast touching (List.replicate 4 (ofNat 2)) 3 = true ∧
      crossover touching (List.replicate 4 (ofNat 2)) = [false, true, false, true] ∧
      (marked (crossover touching (List.replicate 4 (ofNat 2))) 0 3).card =
        (turns (comparedAt .atLeast touching (List.replicate 4 (ofNat 2)))
          (comparedAt .below touching (List.replicate 4 (ofNat 2))) 0 3).card + 1 := by
  have hdefined : DefinedBetween touching (List.replicate 4 (ofNat 2)) 0 3 := by
    have hall : ∀ bar < 4, definedAt bar touching = true ∧
        definedAt bar (List.replicate 4 (ofNat 2 : Float)) = true := by decide +kernel
    exact fun bar _ hlast => hall bar (Nat.lt_succ_of_le hlast)
  have hbelow : comparedAt .below touching (List.replicate 4 (ofNat 2)) 0 = true := by
    decide +kernel
  have hreached : comparedAt .atLeast touching (List.replicate 4 (ofNat 2)) 3 = true := by
    decide +kernel
  exact ⟨Double.ordered, by decide, hdefined, hbelow, hreached, by decide +kernel,
    (crossings_between Double.ordered (by decide) hdefined).1.count hbelow hreached⟩

end Backtest.Series
