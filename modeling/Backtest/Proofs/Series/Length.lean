import Backtest.Proofs.Outcome
import Backtest.Series.Band
import Backtest.Series.Extreme
import Backtest.Series.Oscillator

/-!
# The length of an indicator

An indicator has one value for each bar of its source; one with several sources covers the bars that
all of them have.
-/

namespace Backtest.Series

open Arith

variable {α : Type} [Arith α]

/-- Combining two series of the same length, bar by bar, gives one of that length. -/
theorem length_zipWith_of {β γ δ : Type} {bars : Nat} {f : β → γ → δ} {xs : List β} {ys : List γ}
    (hxs : xs.length = bars) (hys : ys.length = bars) : (List.zipWith f xs ys).length = bars := by
  rw [List.length_zipWith, hxs, hys, Nat.min_self]

@[simp]
theorem length_shift {β : Type} (fill : β) (places : Int) (xs : List β) :
    (shift fill places xs).length = xs.length := by
  rw [shift]
  split
  · rw [advance, List.length_append, List.length_replicate, List.length_take]
    omega
  · exact length_delay ..

@[simp]
theorem length_ofFlags (flags : Flags) : (ofFlags flags : Series α).length = flags.length :=
  List.length_map _

@[simp]
theorem length_simple (period : Nat) (xs : Series α) : (simple period xs).length = xs.length :=
  length_trailing ..

theorem length_weighted {period : Nat} {xs ys : Series α} (hys : weighted period xs = .ok ys) :
    ys.length = xs.length := by
  rw [weighted] at hys
  obtain ⟨total, _, hys⟩ := Outcome.bind_eq_ok.1 hys
  injection hys with hys
  rw [← hys]
  exact length_trailing ..

@[simp]
theorem length_smooth (factor : α) (xs : Series α) : (smooth factor xs).length = xs.length :=
  length_scan ..

@[simp]
theorem length_exponential (period : Nat) (xs : Series α) :
    (exponential period xs).length = xs.length := length_smooth ..

@[simp]
theorem length_wilder (period : Nat) (xs : Series α) : (wilder period xs).length = xs.length :=
  length_smooth ..

@[simp]
theorem length_relativeStrength (period : Nat) (xs : Series α) :
    (relativeStrength period xs).length = xs.length := length_scan ..

@[simp]
theorem length_stochastic (period : Nat) (source high low : Series α) :
    (stochastic period source high low).length =
      min source.length (min high.length low.length) := by
  rw [stochastic, length_trailing, List.length_zipWith, List.length_zip]

@[simp]
theorem length_averageRange (period : Nat) (high low close : Series α) :
    (averageRange period high low close).length =
      min high.length (min low.length close.length) := by
  rw [averageRange, length_exponential, trueRange, length_stepwise, List.length_zip,
    List.length_zip]

@[simp]
theorem length_extreme (better : α → α → Bool) (period : Nat) (xs : Series α) :
    (extreme better period xs).length = xs.length := length_trailing ..

@[simp]
theorem length_crossover (xs ys : Series α) :
    (crossover xs ys).length = min xs.length ys.length := by
  rw [crossover, length_stepwise, List.length_zip]

@[simp]
theorem length_crossunder (xs ys : Series α) :
    (crossunder xs ys).length = min xs.length ys.length := by
  rw [crossunder, length_stepwise, List.length_zip]

theorem length_average {kind : AverageKind} {period : Nat} {xs ys : Series α}
    (hys : average kind period xs = .ok ys) : ys.length = xs.length := by
  cases kind with
  | simple =>
      injection hys with hys
      rw [← hys, length_simple]
  | exponential =>
      injection hys with hys
      rw [← hys, length_exponential]
  | weighted => exact length_weighted hys

/-- All three lines have one value for each of a count of bars. -/
structure Convergence.Covers (bars : Nat) (lines : Convergence α) : Prop where
  line : lines.line.length = bars
  signal : lines.signal.length = bars
  histogram : lines.histogram.length = bars

theorem convergence_covers (fast slow signal : Nat) (xs : Series α) :
    (convergence fast slow signal xs).Covers xs.length := by
  constructor <;> simp [convergence]

/-- All three lines have one value for each of a count of bars. -/
structure Bands.Covers (bars : Nat) (lines : Bands α) : Prop where
  upper : lines.upper.length = bars
  basis : lines.basis.length = bars
  lower : lines.lower.length = bars

theorem bands_covers (period : Nat) (width : α) (xs : Series α) :
    (bands period width xs).Covers xs.length := by
  constructor <;> exact length_trailing ..

end Backtest.Series
