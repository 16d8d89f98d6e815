import Backtest.Proofs.Ideal
import Backtest.Summary.Metrics
import Mathlib.Order.PartialSups
import Mathlib.Tactic.IntervalCases

/-!
# The drawdown of a curve

The drawdown is found in one pass that compares each bar with the highest one so far.  Over positive
numbers this is the greatest of all declines from a bar to a later one: of the bars before a trough,
the highest is the one from which the decline is greatest (`decline_le_fall`), and it is itself one
of them, so that the pass finds nothing else (`isGreatest_fall`).

What the drawdown is like follows from the declines alone: it lies between nothing and the whole, it
is zero for a curve that never falls, and it neither depends on the unit of the curve nor shrinks
when the curve goes on (`drawdown_is_worst_decline`).
-/

namespace Backtest.Summary

open Arith Backtest.Ideal Series

/-! ## Declines -/

/-- The decline from one number to another, in percent. -/
noncomputable def declineOf (peak trough : ℝ) : ℝ := (peak - trough) / peak * (100 : ℕ)

/-- The declines of a curve: from each bar to itself and to all later ones. -/
def declines (equity : Series Ideal) : Set ℝ :=
  {decline | ∃ earlier later, earlier ≤ later ∧ later < equity.length ∧
    decline = declineOf (numberAt equity earlier) (numberAt equity later)}

/-- A curve of positive numbers. -/
def PositiveCurve (equity : Series Ideal) : Prop :=
  ∀ x ∈ equity, ∃ value, 0 < value ∧ x = finite value

/-- The drawdown of a curve is the greatest of its declines. -/
structure WorstDecline (equity : Series Ideal) (worst : ℝ) : Prop where
  maxDrawdown_eq : maxDrawdown equity = finite worst
  greatest : IsGreatest (declines equity) worst
  nonneg : 0 ≤ worst
  lt_hundred : worst < 100
  eq_zero_iff : worst = 0 ↔
    ∀ bar, bar + 1 < equity.length → numberAt equity bar ≤ numberAt equity (bar + 1)

section Curves

variable {equity : Series Ideal}

theorem PositiveCurve.numberAt_pos (hpositive : PositiveCurve equity) {bar : ℕ}
    (hbar : bar < equity.length) : 0 < numberAt equity bar := by
  obtain ⟨value, hvalue, hx⟩ := hpositive _ (List.getElem_mem hbar)
  rw [numberAt, List.getElem?_eq_getElem hbar, hx]
  exact hvalue

theorem PositiveCurve.eq_numbers (hpositive : PositiveCurve equity) :
    equity = numbers equity.length (numberAt equity) := by
  refine Ideal.eq_numbers fun x hx => ?_
  obtain ⟨value, _, rfl⟩ := hpositive x hx
  rfl

theorem numberAt_append (more : Series Ideal) {bar : ℕ} (hbar : bar < equity.length) :
    numberAt (equity ++ more) bar = numberAt equity bar := by
  rw [numberAt, List.getElem?_append_left hbar, numberAt]

theorem numberAt_scale (factor : ℝ) (equity : Series Ideal) (bar : ℕ) :
    numberAt (equity.map (scale factor)) bar = factor * numberAt equity bar := by
  rw [numberAt, List.getElem?_map, numberAt]
  rcases equity[bar]? with _ | _ | value
  · exact (mul_zero factor).symm
  · exact (mul_zero factor).symm
  · rfl

/-- A curve that goes on keeps its declines. -/
theorem declines_subset_append (equity more : Series Ideal) :
    declines equity ⊆ declines (equity ++ more) := by
  rintro decline ⟨earlier, later, hle, hlater, rfl⟩
  refine ⟨earlier, later, hle, ?_, ?_⟩
  · rw [List.length_append]
    exact Nat.lt_add_right _ hlater
  · rw [numberAt_append more hlater, numberAt_append more (hle.trans_lt hlater)]

/-- Declines are relative, so they have no unit. -/
theorem declines_scale {factor : ℝ} (hfactor : factor ≠ 0) (equity : Series Ideal) :
    declines (equity.map (scale factor)) = declines equity := by
  have hratio (earlier later : ℝ) :
      declineOf (factor * earlier) (factor * later) = declineOf earlier later := by
    rw [declineOf, declineOf, ← mul_sub, mul_div_mul_left _ _ hfactor]
  simp only [declines, numberAt_scale, hratio, List.length_map]

theorem PositiveCurve.append {more : Series Ideal} (hpositive : PositiveCurve equity)
    (hmore : PositiveCurve more) : PositiveCurve (equity ++ more) := by
  intro x hx
  rcases List.mem_append.1 hx with hx | hx
  · exact hpositive x hx
  · exact hmore x hx

theorem PositiveCurve.scale {factor : ℝ} (hpositive : PositiveCurve equity) (hfactor : 0 < factor) :
    PositiveCurve (equity.map (Ideal.scale factor)) := by
  intro x hx
  obtain ⟨y, hy, rfl⟩ := List.mem_map.1 hx
  obtain ⟨value, hvalue, rfl⟩ := hpositive y hy
  exact ⟨factor * value, mul_pos hfactor hvalue, rfl⟩

/-- A curve that never falls from one bar to the next never falls at all. -/
theorem numberAt_le_of_rises
    (hrises : ∀ bar, bar + 1 < equity.length → numberAt equity bar ≤ numberAt equity (bar + 1))
    {earlier later : ℕ} (hle : earlier ≤ later) (hlater : later < equity.length) :
    numberAt equity earlier ≤ numberAt equity later := by
  induction later, hle using Nat.le_induction with
  | base => exact le_rfl
  | succ later _ ih => exact (ih (Nat.lt_of_succ_lt hlater)).trans (hrises later hlater)

/-- What the greatest decline of a positive curve is like. -/
theorem WorstDecline.of_isGreatest (hpositive : PositiveCurve equity) {worst : ℝ}
    (heq : maxDrawdown equity = finite worst) (hgreatest : IsGreatest (declines equity) worst) :
    WorstDecline equity worst := by
  obtain ⟨earlier, later, hle, hlater, hworst⟩ := hgreatest.1
  have hearlier := hpositive.numberAt_pos (hle.trans_lt hlater)
  have hratio : worst = (1 - numberAt equity later / numberAt equity earlier) * 100 := by
    rw [hworst, declineOf, sub_div, div_self hearlier.ne', Nat.cast_ofNat]
  have hnonneg : 0 ≤ worst := by
    refine hgreatest.2 ⟨later, later, le_rfl, hlater, ?_⟩
    rw [declineOf, sub_self, zero_div, zero_mul]
  refine ⟨heq, hgreatest, hnonneg, ?_, fun hzero bar hbar => ?_, fun hrises => ?_⟩
  · have := div_pos (hpositive.numberAt_pos hlater) hearlier
    linarith
  · have hbarPos := hpositive.numberAt_pos (Nat.lt_of_succ_lt hbar)
    have hdecline := hgreatest.2 ⟨bar, bar + 1, Nat.le_succ bar, hbar, rfl⟩
    rw [hzero, declineOf] at hdecline
    have hfall := nonpos_of_mul_nonpos_left hdecline (by norm_num)
    exact sub_nonpos.1 (by simpa only [zero_mul] using (div_le_iff₀ hbarPos).1 hfall)
  · refine le_antisymm ?_ hnonneg
    have := (one_le_div hearlier).2 (numberAt_le_of_rises hrises hle hlater)
    linarith

end Curves

/-! ## One pass -/

section Pass

variable {e : ℕ → ℝ} {last : ℕ}

/-- The decline at a bar from the highest bar so far, in percent. -/
noncomputable def fall (e : ℕ → ℝ) (bar : ℕ) : ℝ :=
  declineOf (partialSups e bar) (e bar)

theorem maximum_finite (x y : ℝ) : maximum (finite x) (finite y) = finite (max x y) := by
  have hatMost : maximum (finite x) (finite y) = if y ≤ x then finite x else finite y := by
    simp only [maximum, isNaN_finite, Bool.or_false]
    exact if_congr decide_eq_true_iff rfl rfl
  rw [hatMost]
  split
  · next hle => rw [max_eq_left hle]
  · next hlt => rw [max_eq_right (not_le.1 hlt).le]

/-- The highest number so far takes the next one into account. -/
theorem maximum_partialSups (e : ℕ → ℝ) (bar : ℕ) :
    maximum (finite (partialSups e bar)) (finite (e (bar + 1))) =
      finite (partialSups e (bar + 1)) := by
  rw [maximum_finite]
  exact congrArg finite (partialSups_succ e bar).symm

theorem numbers_succ (count : ℕ) (e : ℕ → ℝ) :
    numbers (count + 1) e = finite (e 0) :: numbers count fun bar => e (bar + 1) :=
  tabulate_succ ..

theorem peaks_numbers (last : ℕ) (e : ℕ → ℝ) :
    peaks (numbers (last + 1) e) = numbers (last + 1) (partialSups e) := by
  rw [numbers_succ, numbers_succ, peaks, partialSups_zero]
  congr 1
  have hwalk : Series.scan (fun peak x => (maximum peak x, maximum peak x))
      (finite (partialSups e 0)) (numbers last fun bar => e (bar + 1)) =
        numbers last fun bar => partialSups e (bar + 1) :=
    scan_numbers (fun bar => finite (partialSups e bar)) _
      (fun bar => Prod.ext (maximum_partialSups e bar) (maximum_partialSups e bar)) last
  rwa [partialSups_zero] at hwalk

theorem largest_numbers (last : ℕ) (e : ℕ → ℝ) :
    largest (numbers (last + 1) e) = finite (partialSups e last) := by
  rw [numbers_succ, largest]
  induction last with
  | zero => rfl
  | succ last ih =>
      have hsplit : (numbers (last + 1) fun bar => e (bar + 1)) =
          (numbers last fun bar => e (bar + 1)) ++ [finite (e (last + 1))] := by
        rw [numbers, tabulate, List.range_succ, List.map_append]
        rfl
      rw [hsplit, List.foldl_append, ih]
      exact maximum_partialSups e last

theorem maxDrawdown_numbers (hpositive : ∀ bar ≤ last, 0 < e bar) :
    maxDrawdown (numbers (last + 1) e) = finite (partialSups (fall e) last) := by
  have hfall : List.zipWith (fun peak x => (peak - x) / peak * ofNat 100)
      (peaks (numbers (last + 1) e)) (numbers (last + 1) e) = numbers (last + 1) (fall e) := by
    rw [peaks_numbers, numbers, numbers, zipWith_tabulate]
    refine tabulate_congr fun bar hbar => ?_
    have hpeak : 0 < partialSups e bar :=
      (hpositive bar (Nat.le_of_lt_succ hbar)).trans_le (le_partialSups e bar)
    rw [sub_finite, div_finite hpeak.ne', ofNat_eq_finite, mul_finite, fall, declineOf]
  rw [maxDrawdown, hfall, largest_numbers, numbers_succ]
  rfl

/-- From no earlier bar the decline is greater than from the highest one. -/
theorem decline_le_fall {earlier later : ℕ} (hle : earlier ≤ later) (hearlier : 0 < e earlier)
    (hlater : 0 < e later) : declineOf (e earlier) (e later) ≤ fall e later := by
  have hpeak : e earlier ≤ partialSups e later := le_partialSups_of_le e hle
  have hratio : e later / partialSups e later ≤ e later / e earlier :=
    div_le_div_of_nonneg_left hlater.le hearlier hpeak
  rw [fall, declineOf, declineOf, sub_div, sub_div, div_self hearlier.ne',
    div_self (hearlier.trans_le hpeak).ne', Nat.cast_ofNat]
  linarith

theorem numberAt_numbers {count bar : ℕ} (hbar : bar < count) :
    numberAt (numbers count e) bar = e bar := by
  rw [numberAt, numbers, getElem?_tabulate _ hbar]
  rfl

/-- The declines from the highest bars so far are the greatest ones. -/
theorem isGreatest_fall (hpositive : ∀ bar ≤ last, 0 < e bar) :
    IsGreatest (declines (numbers (last + 1) e)) (partialSups (fall e) last) := by
  have hlength : (numbers (last + 1) e).length = last + 1 := length_tabulate ..
  constructor
  · obtain ⟨later, hlater, hworst⟩ := exists_partialSups_eq (fall e) last
    obtain ⟨earlier, hearlier, hpeak⟩ := exists_partialSups_eq e later
    refine ⟨earlier, later, hearlier, by omega, ?_⟩
    rw [hworst, fall, hpeak, numberAt_numbers (by omega), numberAt_numbers (by omega)]
  · rintro decline ⟨earlier, later, hle, hlater, rfl⟩
    rw [hlength] at hlater
    rw [numberAt_numbers (by omega), numberAt_numbers (by omega)]
    exact (decline_le_fall hle (hpositive _ (by omega)) (hpositive _ (by omega))).trans
      (le_partialSups_of_le _ (Nat.le_of_lt_succ hlater))

end Pass

/-! ## The drawdown -/

theorem exists_worstDecline {equity : Series Ideal} (hnonempty : equity ≠ [])
    (hpositive : PositiveCurve equity) : ∃ worst, WorstDecline equity worst := by
  obtain ⟨last, hlast⟩ :=
    Nat.exists_eq_succ_of_ne_zero (mt List.length_eq_zero_iff.1 hnonempty)
  have hnumbers := hpositive.eq_numbers
  have hpos : ∀ bar ≤ last, 0 < numberAt equity bar := fun bar hbar =>
    hpositive.numberAt_pos (by omega)
  rw [hlast] at hnumbers
  have heq := maxDrawdown_numbers hpos
  have hgreatest := isGreatest_fall hpos
  rw [← hnumbers] at heq hgreatest
  exact ⟨_, .of_isGreatest hpositive heq hgreatest⟩

/-- The drawdown of a positive curve is its worst decline, in every unit, and no smaller one than
before when the curve goes on. -/
theorem drawdown_is_worst_decline {equity : Series Ideal} (hnonempty : equity ≠ [])
    (hpositive : PositiveCurve equity) :
    ∃ worst, WorstDecline equity worst ∧
      (∀ factor, 0 < factor → WorstDecline (equity.map (scale factor)) worst) ∧
      ∀ more, PositiveCurve more →
        ∃ later, WorstDecline (equity ++ more) later ∧ worst ≤ later := by
  obtain ⟨worst, hworst⟩ := exists_worstDecline hnonempty hpositive
  refine ⟨worst, hworst, fun factor hfactor => ?_, fun more hmore => ?_⟩
  · obtain ⟨scaled, hscaled⟩ := exists_worstDecline (mt List.map_eq_nil_iff.1 hnonempty)
      (hpositive.scale hfactor)
    have hgreatest := hscaled.greatest
    rw [declines_scale hfactor.ne'] at hgreatest
    exact hworst.greatest.unique hgreatest ▸ hscaled
  · obtain ⟨later, hlater⟩ := exists_worstDecline (List.append_ne_nil_of_left_ne_nil hnonempty more)
      (hpositive.append hmore)
    exact ⟨later, hlater, hlater.greatest.2 (declines_subset_append _ _ hworst.greatest.1)⟩

/-- A curve that rises by a tenth and falls by a tenth. -/
noncomputable def dip : Series Ideal := [ofNat 100, ofNat 110, ofNat 99]

/-- The fall is the worst decline of the curve, in cents as well, and stays it when the curve
recovers. -/
theorem drawdown_is_worst_decline_dip :
    dip ≠ [] ∧ PositiveCurve dip ∧ WorstDecline dip 10 ∧
      WorstDecline (dip.map (scale 100)) 10 ∧
      ∃ later, WorstDecline (dip ++ [finite 105]) later ∧ 10 ≤ later := by
  have hnonempty : dip ≠ [] := nofun
  have hpositive : PositiveCurve dip := by
    simp only [PositiveCurve, dip, List.forall_mem_cons]
    exact ⟨⟨(100 : ℕ), by norm_num, rfl⟩, ⟨(110 : ℕ), by norm_num, rfl⟩,
      ⟨(99 : ℕ), by norm_num, rfl⟩, List.forall_mem_nil _⟩
  have hmore : PositiveCurve [finite 105] := List.forall_mem_singleton.2 ⟨105, by norm_num, rfl⟩
  obtain ⟨worst, hworst, hscaled, hlater⟩ := drawdown_is_worst_decline hnonempty hpositive
  have hfall : (10 : ℝ) ∈ declines dip :=
    ⟨1, 2, by decide, by decide, by norm_num [declineOf, numberAt, dip, ofNat_eq_finite, real?]⟩
  have hten : worst = 10 := by
    obtain ⟨earlier, later, hle, hbar, heq⟩ := hworst.greatest.1
    have hleast := hworst.greatest.2 hfall
    change later < 3 at hbar
    interval_cases later <;> interval_cases earlier <;>
      norm_num [declineOf, numberAt, dip, ofNat_eq_finite, real?] at heq <;> linarith
  exact ⟨hnonempty, hpositive, hten ▸ hworst, hten ▸ hscaled 100 (by norm_num),
    hten ▸ hlater _ hmore⟩

end Backtest.Summary
