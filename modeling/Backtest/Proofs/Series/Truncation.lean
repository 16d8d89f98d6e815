import Backtest.Series.Band
import Backtest.Series.Extreme
import Backtest.Series.Oscillator

/-!
# Indicators over the first bars

No indicator looks ahead.  Each of them commutes with `List.take`: over the first bars of its
sources it gives the first part of what it gives over all of them.  A `scan` has this property
whatever its step is, so each lemma names the scan behind the indicator and nothing else; seeds that
depend on the data, partial windows and delays beyond the length need no case of their own.
-/

namespace Backtest.Series

open Arith

section Delays

variable {β : Type}

theorem delay_take (fill : β) (places count : Nat) (xs : List β) :
    delay fill places (xs.take count) = (delay fill places xs).take count := by
  apply List.ext_getElem?
  intro bar
  simp only [delay, List.getElem?_take, List.length_take]
  rcases Nat.lt_or_ge bar (min count xs.length) with hbar | hbar
  · rw [if_pos hbar, if_pos (by omega), if_pos (by omega)]
    -- the two runs of `fill` may differ in length, but only from bar `bar` on
    rcases Nat.lt_or_ge bar (min places (min count xs.length)) with hfill | hfill
    · rw [List.getElem?_append_left (by simpa using hfill),
        List.getElem?_append_left (by simp; omega)]
      rw [List.getElem?_replicate, List.getElem?_replicate, if_pos hfill, if_pos (by omega)]
    · have hplaces : min places (min count xs.length) = places := by omega
      have hplaces' : min places xs.length = places := by omega
      rw [hplaces, hplaces']
      rw [List.getElem?_append_right (by simp; omega),
        List.getElem?_append_right (by simp; omega)]
      rw [List.getElem?_take, if_pos (by simp; omega)]
  · rw [if_neg (by omega)]
    rcases Nat.lt_or_ge bar count with hcount | hcount
    · rw [if_pos hcount, if_neg (by omega)]
    · rw [if_neg (by omega)]

/-- A move to later bars commutes with cutting the series; a move to earlier ones would not. -/
theorem shift_take (fill : β) {places : Int} (hplaces : 0 ≤ places) (count : Nat) (xs : List β) :
    shift fill places (xs.take count) = (shift fill places xs).take count := by
  rw [shift, shift, if_neg (by omega), if_neg (by omega)]
  exact delay_take ..

end Delays

variable {α : Type} [Arith α]

theorem ofFlags_take (count : Nat) (flags : Flags) :
    ofFlags (flags.take count) = ((ofFlags flags).take count : Series α) :=
  List.map_take

/-! ## Moving averages -/

theorem simple_take (period count : Nat) (xs : Series α) :
    simple period (xs.take count) = (simple period xs).take count := trailing_take ..

theorem weighted_take (period count : Nat) (xs : Series α) :
    weighted period (xs.take count) = (weighted period xs).map (·.take count) := by
  simp only [weighted]
  cases (weightTotal period : Outcome α) with
  | error fault => rfl
  | ok total => exact congrArg Except.ok (trailing_take ..)

theorem smooth_take (factor : α) (count : Nat) (xs : Series α) :
    smooth factor (xs.take count) = (smooth factor xs).take count := scan_take ..

theorem exponential_take (period count : Nat) (xs : Series α) :
    exponential period (xs.take count) = (exponential period xs).take count := smooth_take ..

theorem wilder_take (period count : Nat) (xs : Series α) :
    wilder period (xs.take count) = (wilder period xs).take count := smooth_take ..

theorem average_take (kind : AverageKind) (period count : Nat) (xs : Series α) :
    average kind period (xs.take count) = (average kind period xs).map (·.take count) := by
  cases kind with
  | simple => exact congrArg Except.ok (simple_take ..)
  | exponential => exact congrArg Except.ok (exponential_take ..)
  | weighted => exact weighted_take ..

/-! ## Oscillators -/

theorem relativeStrength_take (period count : Nat) (xs : Series α) :
    relativeStrength period (xs.take count) = (relativeStrength period xs).take count :=
  scan_take ..

/-- The first bars of all three lines. -/
def Convergence.take (count : Nat) (lines : Convergence α) : Convergence α :=
  ⟨lines.line.take count, lines.signal.take count, lines.histogram.take count⟩

/-- The signal line is seeded at the first defined value of the difference, which is the same one on
every part of the series that reaches it. -/
theorem convergence_take (fast slow signal count : Nat) (xs : Series α) :
    convergence fast slow signal (xs.take count) =
      (convergence fast slow signal xs).take count := by
  simp only [convergence, Convergence.take, exponential_take, ← List.take_zipWith]

theorem stochastic_take (period count : Nat) (source high low : Series α) :
    stochastic period (source.take count) (high.take count) (low.take count) =
      (stochastic period source high low).take count := by
  simp only [stochastic]
  rw [List.zip, ← List.take_zipWith, ← List.take_zipWith, trailing_take]

/-! ## Bands and ranges -/

/-- The first bars of all three lines. -/
def Bands.take (count : Nat) (lines : Bands α) : Bands α :=
  ⟨lines.upper.take count, lines.basis.take count, lines.lower.take count⟩

theorem bands_take (period count : Nat) (width : α) (xs : Series α) :
    bands period width (xs.take count) = (bands period width xs).take count := by
  simp only [bands, Bands.take, trailing_take]

theorem trueRange_take (count : Nat) (high low close : Series α) :
    trueRange (high.take count) (low.take count) (close.take count) =
      (trueRange high low close).take count := by
  simp only [trueRange]
  rw [List.zip, List.zip, ← List.take_zipWith, ← List.take_zipWith, stepwise_take]

theorem averageRange_take (period count : Nat) (high low close : Series α) :
    averageRange period (high.take count) (low.take count) (close.take count) =
      (averageRange period high low close).take count := by
  rw [averageRange, trueRange_take, exponential_take, averageRange]

/-! ## Extremes and crossings -/

theorem highest_take (period count : Nat) (xs : Series α) :
    highest period (xs.take count) = (highest period xs).take count := by
  rw [highest, extreme, trailing_take, highest, extreme]

theorem lowest_take (period count : Nat) (xs : Series α) :
    lowest period (xs.take count) = (lowest period xs).take count := by
  rw [lowest, extreme, trailing_take, lowest, extreme]

theorem crossover_take (count : Nat) (xs ys : Series α) :
    crossover (xs.take count) (ys.take count) = (crossover xs ys).take count := by
  simp only [crossover]
  rw [List.zip, ← List.take_zipWith, stepwise_take]

theorem crossunder_take (count : Nat) (xs ys : Series α) :
    crossunder (xs.take count) (ys.take count) = (crossunder xs ys).take count := by
  simp only [crossunder]
  rw [List.zip, ← List.take_zipWith, stepwise_take]

end Backtest.Series
