import Backtest.Proofs.Ideal
import Backtest.Series.Band

/-!
# Averages of numbers

Over numbers that are not rounded, the averages and the bands are what their definitions say.  A
window is averaged by its distances to the latest number, its pivot, and the pivot drops out: the
weights of the distances sum up to the divisor (`pivot_add_sum_div`).  The deviation is that from
the mean, because a distance to the pivot less the mean distance is a distance to the mean
(`deviation_window`).  An average that is smoothed step by step is the sum of all numbers so far
with falling weights (`smoothed_succ`).

Main statement: `indicators_match_definitions`.
-/

namespace Backtest.Series

open Arith Backtest.Ideal

/-! ## Definitions -/

section Definitions

variable (x : ℕ → ℝ) (period bar : ℕ)

/-- The mean of the last `period` numbers. -/
noncomputable def windowMean : ℝ := (∑ back ∈ Finset.range period, x (bar - back)) / period

/-- The mean of the last `period` numbers with the weights `period`, `period - 1`, …, 1 from the
latest on. -/
noncomputable def weightedMean : ℝ :=
  (∑ back ∈ Finset.range period, ((period - back : ℕ) : ℝ) * x (bar - back)) /
    (period * (period + 1) / (2 : ℕ))

/-- The mean square distance of the last `period` numbers to their mean. -/
noncomputable def windowVariance : ℝ :=
  (∑ back ∈ Finset.range period, (x (bar - back) - windowMean x period bar) ^ 2) / period

/-- The average that starts with the first number and that each later one pulls over by a factor. -/
noncomputable def smoothed (factor : ℝ) : ℝ :=
  (1 - factor) ^ bar * x 0 +
    ∑ later ∈ Finset.Icc 1 bar, factor * (1 - factor) ^ (bar - later) * x later

end Definitions

/-! ## Windows -/

/-- A weighted mean is the pivot plus the weighted mean distance to it. -/
theorem pivot_add_sum_div {places : Finset ℕ} {weight : ℕ → ℝ} {total : ℝ} (pivot : ℝ)
    (value : ℕ → ℝ) (htotal : ∑ place ∈ places, weight place = total) (hnonzero : total ≠ 0) :
    pivot + (∑ place ∈ places, weight place * (value place - pivot)) / total =
      (∑ place ∈ places, weight place * value place) / total := by
  have hsum : ∑ place ∈ places, weight place * (value place - pivot) =
      ∑ place ∈ places, weight place * value place - total * pivot := by
    rw [← htotal, Finset.sum_mul, ← Finset.sum_sub_distrib]
    exact Finset.sum_congr rfl fun place _ => mul_sub ..
  rw [hsum, sub_div, mul_div_cancel_left₀ pivot hnonzero, add_sub_cancel]

variable {x : ℕ → ℝ} {period count bar : ℕ}

/-- The last `period` numbers, the latest first. -/
def window (x : ℕ → ℝ) (period bar : ℕ) : Series Ideal :=
  tabulate period fun back => finite (x (bar - back))

/-- A function of the last `period` numbers is undefined before there are so many. -/
theorem windowed_numbers (value : Ideal → List Ideal → Ideal) (hbar : bar < count) :
    windowed period value ((numbers count x).take (bar + 1)).reverse =
      if bar + 1 < period then nan else value (finite (x bar)) (window x period bar) := by
  have hpast : ((numbers count x).take (bar + 1)).reverse = window x (bar + 1) bar := by
    rw [numbers, take_tabulate, Nat.min_eq_left hbar, reverse_tabulate]
    rfl
  have hlatest : window x (bar + 1) bar =
      finite (x bar) :: tabulate bar fun back => finite (x (bar - (back + 1))) := tabulate_succ ..
  have hwindow : (window x (bar + 1) bar).take period = window x (min period (bar + 1)) bar :=
    take_tabulate ..
  have hcases : windowed period value (window x (bar + 1) bar) =
      if ((window x (bar + 1) bar).take period).length < period then nan
      else value (finite (x bar)) ((window x (bar + 1) bar).take period) := by
    rw [hlatest]
    rfl
  have hlength : (window x (min period (bar + 1)) bar).length = min period (bar + 1) :=
    length_tabulate ..
  rw [hpast, hcases, hwindow, hlength]
  split
  · next hshort => rw [if_pos (by omega)]
  · next hlong => rw [if_neg (by omega), Nat.min_eq_left (by omega)]

theorem trailing_windowed_numbers (value : Ideal → List Ideal → Ideal) (count : ℕ) :
    trailing (windowed period value) (numbers count x) = tabulate count fun bar =>
      if bar + 1 < period then nan else value (finite (x bar)) (window x period bar) := by
  have hlength : (numbers count x).length = count := length_tabulate ..
  rw [trailing_eq_tabulate, hlength]
  exact tabulate_congr fun bar hbar => windowed_numbers value hbar

/-- Summing up what a window makes of its numbers, the oldest first. -/
theorem foldr_window {g : Ideal → Ideal} {f : ℝ → ℝ} (hg : ∀ y, g (finite y) = finite (f y))
    (x : ℕ → ℝ) (period bar : ℕ) :
    (window x period bar).foldr (fun y total => total + g y) zero =
      finite (∑ back ∈ Finset.range period, f (x (bar - back))) := by
  have hsum (places : List ℕ) :
      places.foldr (fun back total => total + g (finite (x (bar - back)))) (zero : Ideal) =
        finite (places.map fun back => f (x (bar - back))).sum := by
    induction places with
    | nil => exact zero_eq_finite
    | cons back rest ih =>
        rw [List.foldr_cons, ih, hg, add_finite, List.map_cons, List.sum_cons, add_comm]
  rw [window, tabulate, List.foldr_map]
  exact hsum (List.range period)

/-- Summing up the numbers of a window with weights, the latest first. -/
theorem foldl_window {g : Ideal × ℕ → Ideal} {f : ℝ → ℕ → ℝ}
    (hg : ∀ y back, g (finite y, back) = finite (f y back)) (x : ℕ → ℝ) (period bar : ℕ) :
    (window x period bar).zipIdx.foldl (fun total entry => total + g entry) zero =
      finite (∑ back ∈ Finset.range period, f (x (bar - back)) back) := by
  have hsum (places : List ℕ) (total : ℝ) :
      places.foldl (fun total back => total + g (finite (x (bar - back)), back)) (finite total) =
        finite (total + (places.map fun back => f (x (bar - back)) back).sum) := by
    induction places generalizing total with
    | nil => rw [List.foldl_nil, List.map_nil, List.sum_nil, add_zero]
    | cons back rest ih =>
        rw [List.foldl_cons, hg, add_finite, ih, List.map_cons, List.sum_cons, add_assoc]
  rw [window, zipIdx_tabulate, tabulate, List.foldl_map, zero_eq_finite, hsum, zero_add]
  rfl

section Values

variable (hperiod : 1 ≤ period)
include hperiod

theorem meanDeviation_window (pivot : ℝ) (x : ℕ → ℝ) (bar : ℕ) :
    meanDeviation period (finite pivot) (window x period bar) =
      finite ((∑ back ∈ Finset.range period, (x (bar - back) - pivot)) / period) := by
  have hsum : deviationSum (finite pivot) (window x period bar) = _ :=
    foldr_window (fun y => sub_finite y pivot) x period bar
  rw [meanDeviation, hsum, div_ofNat _ hperiod]

theorem pivot_add_mean (pivot : ℝ) (x : ℕ → ℝ) (bar : ℕ) :
    pivot + (∑ back ∈ Finset.range period, (x (bar - back) - pivot)) / period =
      windowMean x period bar := by
  have hcount : ∑ back ∈ Finset.range period, (1 : ℝ) = period := by
    rw [Finset.sum_const, Finset.card_range, nsmul_one]
  have hnonzero : (period : ℝ) ≠ 0 := Nat.cast_ne_zero.2 (Nat.one_le_iff_ne_zero.1 hperiod)
  have hpivot := pivot_add_sum_div pivot (fun back => x (bar - back)) hcount hnonzero
  simpa only [one_mul, windowMean] using hpivot

theorem basis_window (x : ℕ → ℝ) (bar : ℕ) :
    finite (x bar) + meanDeviation period (finite (x bar)) (window x period bar) =
      finite (windowMean x period bar) := by
  rw [meanDeviation_window hperiod, add_finite, pivot_add_mean hperiod]

theorem simple_numbers (count : ℕ) (x : ℕ → ℝ) :
    simple period (numbers count x) = tabulate count fun bar =>
      if bar + 1 < period then nan else finite (windowMean x period bar) := by
  rw [simple, trailing_windowed_numbers]
  simp only [basis_window hperiod]

omit hperiod in
/-- The weights of a window sum up to half of `period * (period + 1)`. -/
theorem sum_weights (period : ℕ) :
    ∑ back ∈ Finset.range period, ((period - back : ℕ) : ℝ) = period * (period + 1) / 2 := by
  induction period with
  | zero => simp
  | succ period ih =>
      rw [Finset.sum_range_succ']
      simp only [Nat.add_sub_add_right, Nat.sub_zero, ih, Nat.cast_add, Nat.cast_one]
      ring

omit hperiod in
theorem weightTotal_eq (period : ℕ) :
    weightTotal period = (.ok (finite (period * (period + 1) / 2)) : Outcome Ideal) := by
  have hhalf : finite (((period * (period + 1) : ℕ) : ℤ) : ℝ) / (ofNat 2 : Ideal) =
      finite (period * (period + 1) / 2) := by
    rw [div_ofNat _ one_le_two]
    push_cast
    rfl
  exact congrArg Except.ok hhalf

omit hperiod in
theorem weightedSum_window (pivot : ℝ) (x : ℕ → ℝ) (period bar : ℕ) :
    weightedSum period (finite pivot) (window x period bar) = finite
      (∑ back ∈ Finset.range period, ((period - back : ℕ) : ℝ) * (x (bar - back) - pivot)) := by
  refine (foldl_window (f := fun y back => (y - pivot) * ((period - back : ℕ) : ℝ))
    (fun y back => rfl) x period bar).trans ?_
  simp only [mul_comm]

theorem weighted_numbers (count : ℕ) (x : ℕ → ℝ) :
    weighted period (numbers count x) = .ok (tabulate count fun bar =>
      if bar + 1 < period then nan else finite (weightedMean x period bar)) := by
  have htotal : (period * (period + 1) / 2 : ℝ) ≠ 0 := by positivity
  have hvalue (bar : ℕ) : finite (x bar) +
      weightedSum period (finite (x bar)) (window x period bar) /
        finite (period * (period + 1) / 2) = finite (weightedMean x period bar) := by
    rw [weightedSum_window, div_finite htotal, add_finite,
      pivot_add_sum_div _ (fun back => x (bar - back)) (sum_weights period) htotal, weightedMean,
      Nat.cast_ofNat]
  rw [weighted, weightTotal_eq]
  refine congrArg Except.ok ?_
  rw [trailing_windowed_numbers]
  simp only [hvalue]

omit hperiod in
theorem windowVariance_nonneg (x : ℕ → ℝ) (period bar : ℕ) : 0 ≤ windowVariance x period bar :=
  div_nonneg (Finset.sum_nonneg fun _ _ => sq_nonneg _) (Nat.cast_nonneg period)

theorem deviation_window (x : ℕ → ℝ) (bar : ℕ) :
    deviation period (finite (x bar)) (window x period bar) =
      finite √(windowVariance x period bar) := by
  let distance (y : Ideal) : Ideal :=
    y - finite (x bar) - meanDeviation period (finite (x bar)) (window x period bar)
  have hdistance (y : ℝ) : distance (finite y) = finite (y - windowMean x period bar) := by
    simp only [distance, meanDeviation_window hperiod, sub_finite, sub_sub,
      pivot_add_mean hperiod]
  have hsquare (y : ℝ) : distance (finite y) * distance (finite y) =
      finite ((y - windowMean x period bar) ^ 2) := by
    rw [hdistance, mul_finite, sq]
  calc deviation period (finite (x bar)) (window x period bar)
      = Arith.sqrt (finite (∑ back ∈ Finset.range period,
          (x (bar - back) - windowMean x period bar) ^ 2) / ofNat period) :=
        congrArg (fun total => Arith.sqrt (total / ofNat period))
          (foldr_window (g := fun y => distance y * distance y) hsquare x period bar)
    _ = Arith.sqrt (finite (windowVariance x period bar)) := by
        rw [div_ofNat _ hperiod, windowVariance]
    _ = finite √(windowVariance x period bar) := sqrt_finite (windowVariance_nonneg x period bar)

theorem bands_numbers (width : ℝ) (count : ℕ) (x : ℕ → ℝ) :
    bands period (finite width) (numbers count x) =
      ⟨tabulate count fun bar => if bar + 1 < period then nan else
          finite (windowMean x period bar + width * √(windowVariance x period bar)),
        tabulate count fun bar => if bar + 1 < period then nan else
          finite (windowMean x period bar),
        tabulate count fun bar => if bar + 1 < period then nan else
          finite (windowMean x period bar - width * √(windowVariance x period bar))⟩ := by
  simp only [bands, trailing_windowed_numbers, basis_window hperiod, deviation_window hperiod,
    mul_finite, add_finite, sub_finite]

end Values

/-! ## Smoothing -/

theorem smoothed_zero (x : ℕ → ℝ) (factor : ℝ) : smoothed x 0 factor = x 0 := by
  simp [smoothed]

/-- The average takes the share `factor` of the way to each number. -/
theorem smoothed_succ (x : ℕ → ℝ) (bar : ℕ) (factor : ℝ) : smoothed x (bar + 1) factor =
    smoothed x bar factor + factor * (x (bar + 1) - smoothed x bar factor) := by
  have hearlier : ∑ later ∈ Finset.Icc 1 bar,
      factor * (1 - factor) ^ (bar + 1 - later) * x later =
        (1 - factor) * ∑ later ∈ Finset.Icc 1 bar,
          factor * (1 - factor) ^ (bar - later) * x later := by
    rw [Finset.mul_sum]
    refine Finset.sum_congr rfl fun later hlater => ?_
    rw [Nat.succ_sub (Finset.mem_Icc.1 hlater).2, pow_succ]
    ring
  rw [smoothed, Finset.sum_Icc_succ_top (Nat.le_add_left 1 bar), hearlier, Nat.sub_self, pow_succ,
    pow_zero, smoothed]
  ring

/-- The states of the smoothing over a series of numbers. -/
noncomputable def smoothStates (x : ℕ → ℝ) (factor : ℝ) : ℕ → Option Ideal
  | 0 => none
  | bar + 1 => some (finite (smoothed x bar factor))

theorem smooth_numbers (factor : ℝ) (count : ℕ) (x : ℕ → ℝ) :
    smooth (finite factor) (numbers count x) = numbers count fun bar => smoothed x bar factor := by
  refine scan_numbers (smoothStates x factor) _ (fun bar => ?_) count
  cases bar with
  | zero =>
      simp only [smoothStates, smoothed_zero]
      rfl
  | succ bar =>
      simp only [smoothStates, smoothed_succ]
      rfl

theorem exponential_numbers (period count : ℕ) (x : ℕ → ℝ) :
    exponential period (numbers count x) =
      numbers count fun bar => smoothed x bar (2 / (period + 1)) := by
  have hfactor : (ofNat 2 / ofNat (period + 1) : Ideal) = finite (2 / (period + 1)) := by
    rw [ofNat_eq_finite 2, div_ofNat _ (Nat.le_add_left 1 period)]
    push_cast
    rfl
  rw [exponential, hfactor, smooth_numbers]

theorem wilder_numbers (hperiod : 1 ≤ period) (count : ℕ) (x : ℕ → ℝ) :
    wilder period (numbers count x) = numbers count fun bar => smoothed x bar (1 / period) := by
  have hfactor : (one / ofNat period : Ideal) = finite (1 / period) := by
    rw [one, ofNat_eq_finite 1, div_ofNat _ hperiod, Nat.cast_one]
  rw [wilder, hfactor, smooth_numbers]

/-! ## All averages -/

/-- At a bar the lines are the mean and, at the same distance on both sides, the bands; the distance
is `width` standard deviations. -/
structure BandsAt (lines : Bands Ideal) (x : ℕ → ℝ) (period : ℕ) (width : ℝ) (bar : ℕ)
    (upper lower : ℝ) : Prop where
  upper_eq : lines.upper[bar]? = some (finite upper)
  basis_eq : lines.basis[bar]? = some (finite (windowMean x period bar))
  lower_eq : lines.lower[bar]? = some (finite lower)
  distance : (upper - windowMean x period bar) ^ 2 = width ^ 2 * windowVariance x period bar
  middle : upper + lower = 2 * windowMean x period bar
  ordered : 0 ≤ width → lower ≤ upper

/-- The averages and the bands of a series are those of its numbers by their definitions, and
windows that reach over the start of the series have none. -/
structure MatchesDefinitions (xs : Series Ideal) (period : ℕ) (width : ℝ) : Prop where
  simple : simple period xs = tabulate xs.length fun bar =>
    if bar + 1 < period then nan else finite (windowMean (numberAt xs) period bar)
  weighted : weighted period xs = .ok (tabulate xs.length fun bar =>
    if bar + 1 < period then nan else finite (weightedMean (numberAt xs) period bar))
  exponential : exponential period xs = tabulate xs.length fun bar =>
    finite (smoothed (numberAt xs) bar (2 / (period + 1)))
  wilder : wilder period xs = tabulate xs.length fun bar =>
    finite (smoothed (numberAt xs) bar (1 / period))
  early : ∀ bar < xs.length, bar + 1 < period →
    let lines := bands period (finite width) xs
    lines.upper[bar]? = some nan ∧ lines.basis[bar]? = some nan ∧ lines.lower[bar]? = some nan
  bands : ∀ bar < xs.length, period ≤ bar + 1 →
    ∃ upper lower,
      BandsAt (bands period (finite width) xs) (numberAt xs) period width bar upper lower

/-- Every average of a series of numbers, and its bands, are what their definitions say. -/
theorem indicators_match_definitions {xs : Series Ideal} (hxs : ∀ x ∈ xs, isNaN x = false)
    {period : ℕ} (hperiod : 1 ≤ period) (width : ℝ) : MatchesDefinitions xs period width := by
  have hnumbers := eq_numbers hxs
  have hbands : bands period (finite width) xs = _ :=
    (congrArg (bands period (finite width)) hnumbers).trans (bands_numbers hperiod width _ _)
  refine ⟨(congrArg _ hnumbers).trans (simple_numbers hperiod _ _),
    (congrArg _ hnumbers).trans (weighted_numbers hperiod _ _),
    (congrArg _ hnumbers).trans (exponential_numbers period _ _),
    (congrArg _ hnumbers).trans (wilder_numbers hperiod _ _),
    fun bar hbar hshort => ?_, fun bar hbar hlong => ?_⟩
  · simp only [hbands, getElem?_tabulate _ hbar, if_pos hshort, and_self]
  · let mean := windowMean (numberAt xs) period bar
    let deviation := √(windowVariance (numberAt xs) period bar)
    have hlate : ¬ bar + 1 < period := Nat.not_lt.2 hlong
    refine ⟨mean + width * deviation, mean - width * deviation, ?_, ?_, ?_, ?_, ?_,
      fun hwidth => ?_⟩
    · rw [hbands, getElem?_tabulate _ hbar, if_neg hlate]
    · rw [hbands, getElem?_tabulate _ hbar, if_neg hlate]
    · rw [hbands, getElem?_tabulate _ hbar, if_neg hlate]
    · rw [add_sub_cancel_left, mul_pow, Real.sq_sqrt (windowVariance_nonneg ..)]
    · ring
    · have hspread : 0 ≤ width * deviation := mul_nonneg hwidth (Real.sqrt_nonneg _)
      linarith

/-- A price that rises and falls back by half of that. -/
noncomputable def peak : Series Ideal := [finite 3, finite 7, finite 5]

theorem indicators_match_definitions_peak : (∀ x ∈ peak, isNaN x = false) ∧ 1 ≤ 2 ∧
    MatchesDefinitions peak 2 3 ∧ windowMean (numberAt peak) 2 2 = 6 ∧
      weightedMean (numberAt peak) 2 2 = 17 / 3 ∧ windowVariance (numberAt peak) 2 2 = 1 ∧
      smoothed (numberAt peak) 2 (2 / 3) = 47 / 9 := by
  have hpeak : ∀ x ∈ peak, isNaN x = false := by simp [peak]
  have hnumbers : numberAt peak 0 = 3 ∧ numberAt peak 1 = 7 ∧ numberAt peak 2 = 5 := ⟨rfl, rfl, rfl⟩
  refine ⟨hpeak, by decide, indicators_match_definitions hpeak (by decide) 3, ?_, ?_, ?_, ?_⟩
  · norm_num [windowMean, Finset.sum_range_succ, hnumbers]
  · norm_num [weightedMean, Finset.sum_range_succ, hnumbers]
  · norm_num [windowVariance, windowMean, Finset.sum_range_succ, hnumbers]
  · norm_num [smoothed, Finset.sum_Icc_succ_top, hnumbers]

end Backtest.Series
