import Backtest.Proofs.Outcome
import Backtest.Series.Band
import Backtest.Series.Extreme
import Backtest.Series.Oscillator

/-!
# Indicators in another unit

A change of the unit of prices multiplies every price by the same number.  Averages, the convergence
and bands of the new prices are those of the old ones in the new unit; the relative strength has no
unit and stays as it is, and so does every comparison of two lines.

`Rescales` lists what a change of unit keeps of an arithmetic.  Each indicator is a scan, and a scan
whose step commutes with the change commutes with it as a whole (`scan_rescale`).
-/

namespace Backtest

open Arith

/-- A change of unit keeps comparisons, sums, and products and quotients with a number that has no
unit; a quotient of two prices has none either. -/
structure Rescales {α : Type} [Arith α] (change : α → α) : Prop where
  isNaN_eq : ∀ x, isNaN (change x) = isNaN x
  isFinite_eq : ∀ x, isFinite (change x) = isFinite x
  less_eq : ∀ x y, less (change x) (change y) = less x y
  atMost_eq : ∀ x y, atMost (change x) (change y) = atMost x y
  same_eq : ∀ x y, same (change x) (change y) = same x y
  zero_eq : change zero = zero
  nan_eq : change nan = nan
  neg_eq : ∀ x, -change x = change (-x)
  add_eq : ∀ x y, change x + change y = change (x + y)
  sub_eq : ∀ x y, change x - change y = change (x - y)
  mul_left_eq : ∀ k x, k * change x = change (k * x)
  mul_right_eq : ∀ x k, change x * k = change (x * k)
  div_eq : ∀ x k, change x / k = change (x / k)
  ratio_eq : ∀ x y, change x / change y = x / y
  sqrt_eq : ∀ x, sqrt (change (change x)) = change (sqrt x)

namespace Rescales

variable {α : Type} [Arith α] {change : α → α} (hchange : Rescales change) (x : α)
include hchange

theorem zero_less_eq : less zero (change x) = less zero x := by
  rw [← hchange.less_eq zero x, hchange.zero_eq]

theorem less_zero_eq : less (change x) zero = less x zero := by
  rw [← hchange.less_eq x zero, hchange.zero_eq]

theorem same_zero_eq : same (change x) zero = same x zero := by
  rw [← hchange.same_eq x zero, hchange.zero_eq]

end Rescales

namespace Series

/-! ## Scans -/

section Scans

variable {ι κ σ τ β γ : Type} {entry : ι → κ} {result : β → γ}

/-- A step that commutes with a change of its entries, states and results makes the scan commute. -/
theorem scan_rescale {step : σ → ι → σ × β} {other : τ → κ → τ × γ} (held : σ → τ)
    (hstep : ∀ state x, other (held state) (entry x) =
      (held (step state x).1, result (step state x).2)) (state : σ) (xs : List ι) :
    scan other (held state) (xs.map entry) = (scan step state xs).map result := by
  induction xs generalizing state with
  | nil => rfl
  | cons x rest ih => rw [List.map_cons, scan_cons, hstep, ih, scan_cons, List.map_cons]

theorem trailing_rescale {value : List ι → β} {other : List κ → γ}
    (hvalue : ∀ past, other (past.map entry) = result (value past)) (xs : List ι) :
    trailing other (xs.map entry) = (trailing value xs).map result :=
  scan_rescale (List.map entry) (fun past x => Prod.ext rfl (hvalue (x :: past))) [] xs

end Scans

variable {α : Type} [Arith α] {change : α → α} (hchange : Rescales change)
include hchange

/-! ## Windows -/

theorem windowed_rescale {period : Nat} {value : α → List α → α}
    (hvalue : ∀ pivot window, value (change pivot) (window.map change) =
      change (value pivot window)) (past : List α) :
    windowed period value (past.map change) = change (windowed period value past) := by
  cases past with
  | nil => exact hchange.nan_eq.symm
  | cons latest past =>
      simp only [List.map_cons, windowed]
      rw [← List.map_cons, ← List.map_take, List.length_map, apply_ite change, hchange.nan_eq,
        hvalue]

theorem deviationSum_rescale (pivot : α) (window : List α) :
    deviationSum (change pivot) (window.map change) = change (deviationSum pivot window) := by
  induction window with
  | nil => exact hchange.zero_eq.symm
  | cons x rest ih =>
      rw [deviationSum] at ih
      rw [deviationSum, List.map_cons, List.foldr_cons, ih, hchange.sub_eq, hchange.add_eq]
      rfl

theorem meanDeviation_rescale (period : Nat) (pivot : α) (window : List α) :
    meanDeviation period (change pivot) (window.map change) =
      change (meanDeviation period pivot window) := by
  rw [meanDeviation, deviationSum_rescale hchange, hchange.div_eq, meanDeviation]

theorem mean_rescale (period : Nat) (pivot : α) (window : List α) :
    change pivot + meanDeviation period (change pivot) (window.map change) =
      change (pivot + meanDeviation period pivot window) := by
  rw [meanDeviation_rescale hchange, hchange.add_eq]

theorem weightedSum_rescale (period : Nat) (pivot : α) (window : List α) :
    weightedSum period (change pivot) (window.map change) =
      change (weightedSum period pivot window) := by
  have hfold (entries : List (α × Nat)) (total : α) :
      entries.foldl (fun total entry => total + (change entry.1 - change pivot) *
          ofNat (period - entry.2)) (change total) =
        change (entries.foldl (fun total entry => total + (entry.1 - pivot) *
          ofNat (period - entry.2)) total) := by
    induction entries generalizing total with
    | nil => rfl
    | cons entry rest ih =>
        rw [List.foldl_cons, List.foldl_cons, hchange.sub_eq, hchange.mul_right_eq,
          hchange.add_eq, ih]
  rw [weightedSum, List.zipIdx_map, List.foldl_map, ← hchange.zero_eq]
  exact hfold _ _

/-- The deviation of a window is a root of squares: they carry the new unit twice. -/
theorem deviation_rescale (period : Nat) (pivot : α) (window : List α) :
    deviation period (change pivot) (window.map change) =
      change (deviation period pivot window) := by
  have hsquare (d : α) : change d * change d = change (change (d * d)) := by
    rw [hchange.mul_left_eq, hchange.mul_right_eq]
  have hsquares (mean : α) (rest : List α) :
      (rest.map change).foldr (fun x total => total +
          (x - change pivot - change mean) * (x - change pivot - change mean)) zero =
        change (change (rest.foldr (fun x total => total +
          (x - pivot - mean) * (x - pivot - mean)) zero)) := by
    induction rest with
    | nil => rw [List.map_nil, List.foldr_nil, List.foldr_nil, hchange.zero_eq, hchange.zero_eq]
    | cons x rest ih =>
        rw [List.map_cons, List.foldr_cons, ih, hchange.sub_eq, hchange.sub_eq, hsquare,
          hchange.add_eq, hchange.add_eq, List.foldr_cons]
  simp only [deviation]
  rw [meanDeviation_rescale hchange, hsquares, hchange.div_eq, hchange.div_eq, hchange.sqrt_eq]

/-! ## Averages -/

theorem simple_rescale (period : Nat) (xs : Series α) :
    simple period (xs.map change) = (simple period xs).map change :=
  trailing_rescale (windowed_rescale hchange (mean_rescale hchange period)) xs

theorem weighted_rescale (period : Nat) (xs : Series α) :
    weighted period (xs.map change) = (weighted period xs).map (List.map change) := by
  rw [weighted, weighted]
  cases (weightTotal period : Outcome α) with
  | error fault => rfl
  | ok total =>
      refine congrArg Except.ok
        (trailing_rescale (windowed_rescale hchange fun pivot window => ?_) xs)
      rw [weightedSum_rescale hchange, hchange.div_eq, hchange.add_eq]

theorem smoothStep_rescale (factor : α) (state : Option α) (x : α) :
    smoothStep factor (state.map change) (change x) =
      ((smoothStep factor state x).1.map change, change (smoothStep factor state x).2) := by
  cases state with
  | none =>
      simp only [Option.map_none, smoothStep, hchange.isNaN_eq]
      split
      · exact Prod.ext rfl hchange.nan_eq.symm
      · rfl
  | some last =>
      simp only [Option.map_some, smoothStep, hchange.sub_eq, hchange.mul_left_eq, hchange.add_eq]

theorem smooth_rescale (factor : α) (xs : Series α) :
    smooth factor (xs.map change) = (smooth factor xs).map change :=
  scan_rescale (Option.map change) (smoothStep_rescale hchange factor) none xs

theorem exponential_rescale (period : Nat) (xs : Series α) :
    exponential period (xs.map change) = (exponential period xs).map change :=
  smooth_rescale hchange _ xs

theorem average_rescale (kind : AverageKind) (period : Nat) (xs : Series α) :
    average kind period (xs.map change) = (average kind period xs).map (List.map change) := by
  cases kind with
  | simple => exact congrArg Except.ok (simple_rescale hchange period xs)
  | exponential => exact congrArg Except.ok (exponential_rescale hchange period xs)
  | weighted => exact weighted_rescale hchange period xs

/-! ## Convergence, strength and bands -/

theorem difference_rescale (xs ys : Series α) :
    List.zipWith (· - ·) (xs.map change) (ys.map change) =
      (List.zipWith (· - ·) xs ys).map change := by
  rw [List.zipWith_map, List.map_zipWith]
  simp only [hchange.sub_eq]

theorem convergence_rescale (fast slow signal : Nat) (xs : Series α) :
    convergence fast slow signal (xs.map change) =
      let lines := convergence fast slow signal xs
      ⟨lines.line.map change, lines.signal.map change, lines.histogram.map change⟩ := by
  simp only [convergence, exponential_rescale hchange, difference_rescale hchange]

theorem strengthIndex_rescale (gain loss : α) :
    strengthIndex (change gain) (change loss) = strengthIndex gain loss := by
  rw [strengthIndex, hchange.same_zero_eq, hchange.ratio_eq, strengthIndex]

/-- What the strength index remembers, in another unit. -/
def StrengthState.rescale (change : α → α) (state : StrengthState α) : StrengthState α :=
  ⟨state.seen, change state.last, change state.gain, change state.loss⟩

theorem strengthStep_rescale (period : Nat) (state : StrengthState α) (x : α) :
    strengthStep period (state.rescale change) (change x) =
      ((strengthStep period state x).1.rescale change, (strengthStep period state x).2) := by
  have heither (first : Bool) (y z : α) :
      (if first then change y else change z) = change (if first then y else z) :=
    (apply_ite change ..).symm
  have horNothing (first : Bool) (y : α) :
      (if first then change y else zero) = change (if first then y else zero) := by
    rw [← heither, hchange.zero_eq]
  simp only [strengthStep, StrengthState.rescale, hchange.sub_eq, hchange.add_eq, hchange.neg_eq,
    hchange.mul_right_eq, hchange.div_eq, hchange.zero_less_eq, hchange.less_zero_eq,
    heither, horNothing, strengthIndex_rescale hchange]
  split
  · rfl
  · split
    · split <;> rfl
    · rfl

/-- The relative strength has no unit. -/
theorem relativeStrength_rescale (period : Nat) (xs : Series α) :
    relativeStrength period (xs.map change) = relativeStrength period xs := by
  have hstart : StrengthState.rescale change ⟨0, zero, zero, zero⟩ = ⟨0, zero, zero, zero⟩ := by
    rw [StrengthState.rescale, hchange.zero_eq]
  have hscan : scan (strengthStep period) (StrengthState.rescale change ⟨0, zero, zero, zero⟩)
      (xs.map change) = (scan (strengthStep period) ⟨0, zero, zero, zero⟩ xs).map id :=
    scan_rescale _ (strengthStep_rescale hchange period) _ xs
  rw [hstart, List.map_id] at hscan
  exact hscan

theorem bands_rescale (period : Nat) (width : α) (xs : Series α) :
    bands period width (xs.map change) =
      let lines := bands period width xs
      ⟨lines.upper.map change, lines.basis.map change, lines.lower.map change⟩ := by
  have hline (value : α → List α → α)
      (hvalue : ∀ pivot window, value (change pivot) (window.map change) =
        change (value pivot window)) :
      trailing (windowed period value) (xs.map change) =
        (trailing (windowed period value) xs).map change :=
    trailing_rescale (windowed_rescale hchange hvalue) xs
  have hwidth (pivot : α) (window : List α) :
      width * deviation period (change pivot) (window.map change) =
        change (width * deviation period pivot window) := by
    rw [deviation_rescale hchange, hchange.mul_left_eq]
  rw [bands, hline _ fun _ _ => ?upper, hline _ (mean_rescale hchange period),
    hline _ fun _ _ => ?lower, bands]
  case upper =>
    dsimp only
    rw [mean_rescale hchange, hwidth, hchange.add_eq]
  case lower =>
    dsimp only
    rw [mean_rescale hchange, hwidth, hchange.sub_eq]

end Series

end Backtest
