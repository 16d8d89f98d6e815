import Backtest.Proofs.Decimal.Absorbing
import Backtest.Proofs.Series.Length
import Backtest.Proofs.Series.Truncation

/-!
# Indicators of a delayed series

An indicator of a series that is moved to later bars is the indicator of the series, moved to later
bars: the undefined run in front delays the values and leaves no other trace.

A delayed series is an undefined run and then the series, cut to the old length.  Indicators commute
with the cut, so it is enough to look at the run (`delay_commute`).  A smoothed series waits for the
first defined value.  A trailing value sees the run at the old end of its past, and each kernel has
its own reason not to be moved by it: a window that reaches into the run is undefined
(`windowed_append_nan`), and extremes pass over what is undefined (`bestOf_append_nan`,
`highestOf_append_blank`, `lowestOf_append_blank`).
-/

namespace Backtest.Series

open Arith

/-! ## Runs in front of a series -/

section Runs

variable {ι σ β γ : Type} {blank : ι} {fill : β}

/-- A step that stays where it is at a blank entry passes over a run of them. -/
theorem scan_replicate_append {step : σ → ι → σ × β} {state : σ}
    (hstep : step state blank = (state, fill)) (count : Nat) (xs : List ι) :
    scan step state (List.replicate count blank ++ xs) =
      List.replicate count fill ++ scan step state xs := by
  induction count with
  | zero => rfl
  | succ count ih =>
      rw [List.replicate_succ, List.cons_append, scan_cons, hstep, ih, List.replicate_succ,
        List.cons_append]

/-- A value of the past that a blank run at the old end of the past does not change, and that is
blank as long as there is nothing else. -/
structure PassesOver (blank : ι) (fill : β) (value : List ι → β) : Prop where
  run : ∀ count, value (List.replicate (count + 1) blank) = fill
  past : ∀ latest past count,
    value (latest :: past ++ List.replicate count blank) = value (latest :: past)

theorem trailing_replicate_append {value : List ι → β} (hvalue : PassesOver blank fill value)
    (count : Nat) (xs : List ι) :
    trailing value (List.replicate count blank ++ xs) =
      List.replicate count fill ++ trailing value xs := by
  let step (past : List ι) (x : ι) : List ι × β := (x :: past, value (x :: past))
  have hrun (seen : Nat) :
      scan step (List.replicate seen blank) (List.replicate count blank ++ xs) =
        List.replicate count fill ++ scan step (List.replicate (seen + count) blank) xs := by
    induction count generalizing seen with
    | zero => rfl
    | succ count ih =>
        have hnext : step (List.replicate seen blank) blank =
            (List.replicate (seen + 1) blank, fill) := congrArg (Prod.mk _) (hvalue.run seen)
        rw [List.replicate_succ, List.cons_append, scan_cons, hnext, ih, Nat.add_assoc,
          Nat.add_comm 1]
        rfl
  have hpast (past : List ι) :
      scan step (past ++ List.replicate count blank) xs = scan step past xs := by
    clear hrun
    induction xs generalizing past with
    | nil => rfl
    | cons x rest ih =>
        rw [scan_cons, scan_cons, ← ih (x :: past)]
        exact congrArg (· :: _) (hvalue.past x past count)
  have hwhole := hrun 0
  rw [Nat.zero_add] at hwhole
  exact hwhole.trans (congrArg _ (hpast []))

/-- What passes over a run in front and commutes with a cut commutes with a delay. -/
theorem delay_commute {f : List ι → List β} (hlength : ∀ xs, (f xs).length = xs.length)
    (htake : ∀ count xs, f (xs.take count) = (f xs).take count)
    (hrun : ∀ count xs, f (List.replicate count blank ++ xs) =
      List.replicate count fill ++ f xs) (count : Nat) (xs : List ι) :
    f (delay blank count xs) = delay fill count (f xs) := by
  rw [delay, delay, htake, hrun, hlength]

theorem trailing_delay {value : List ι → β} (hvalue : PassesOver blank fill value) (count : Nat)
    (xs : List ι) : trailing value (delay blank count xs) = delay fill count (trailing value xs) :=
  delay_commute (length_trailing value) (trailing_take value) (trailing_replicate_append hvalue)
    count xs

/-- A fold that starts at the old end and stays where it is over a run there does not see it. -/
theorem foldr_append_replicate {f : ι → σ → σ} {start : σ} (hblank : f blank start = start)
    (window : List ι) (count : Nat) :
    (window ++ List.replicate count blank).foldr f start = window.foldr f start := by
  have hrun : (List.replicate count blank).foldr f start = start := by
    induction count with
    | zero => rfl
    | succ count ih => rw [List.replicate_succ, List.foldr_cons, ih, hblank]
  rw [List.foldr_append, hrun]

theorem getElem?_delay (fill : β) (count : Nat) (xs : List β) (bar : Nat) :
    (delay fill count xs)[bar]? =
      if bar < xs.length then if bar < count then some fill else xs[bar - count]? else none := by
  rw [delay, List.getElem?_take]
  split
  · next hbar =>
      rcases Nat.lt_or_ge bar count with hcount | hcount
      · rw [if_pos hcount, List.getElem?_append_left (by simp; omega), List.getElem?_replicate,
          if_pos (by omega)]
      · rw [if_neg (by omega), List.getElem?_append_right (by simp; omega), List.length_replicate,
          Nat.min_eq_left (by omega)]
  · rfl

/-- Series that are delayed alike are combined bar by bar as before. -/
theorem zipWith_delay {first : ι} {second : γ} {f : ι → γ → β} (hf : f first second = fill)
    (count : Nat) (xs : List ι) (ys : List γ) :
    List.zipWith f (delay first count xs) (delay second count ys) =
      delay fill count (List.zipWith f xs ys) := by
  apply List.ext_getElem?
  intro bar
  rw [List.getElem?_zipWith, getElem?_delay, getElem?_delay, getElem?_delay,
    List.getElem?_zipWith, List.length_zipWith, ← hf]
  by_cases hxs : bar < xs.length
  · by_cases hys : bar < ys.length
    · by_cases hcount : bar < count <;> simp [hxs, hys, hcount]
    · simp [hys]
  · simp [hxs]

end Runs

variable {α : Type} [Arith α]

/-- A series as it was a count of bars earlier; the first bars have no value then. -/
def lag (count : Nat) (xs : Series α) : Series α := shift nan (count : Int) xs

theorem lag_eq_delay (count : Nat) (xs : Series α) : lag count xs = delay nan count xs := by
  rw [lag, shift, if_neg (by omega), Int.toNat_natCast]

/-- All three lines as they were a count of bars earlier. -/
def Bands.lag (count : Nat) (lines : Bands α) : Bands α :=
  ⟨Series.lag count lines.upper, Series.lag count lines.basis, Series.lag count lines.lower⟩

/-- All three lines as they were a count of bars earlier. -/
def Convergence.lag (count : Nat) (lines : Convergence α) : Convergence α :=
  ⟨Series.lag count lines.line, Series.lag count lines.signal, Series.lag count lines.histogram⟩

section Kernels

variable (habsorbing : Absorbing α)
include habsorbing

/-! ## Windows that reach into the run -/

section Windows

variable {pivot : α} {window : List α}

/-- A sum with an undefined summand is undefined. -/
theorem foldl_add_eq_nan {ι : Type} {f : ι → α} {entries : List ι} {total : α}
    (hnan : total = nan ∨ ∃ entry ∈ entries, f entry = nan) :
    entries.foldl (fun total entry => total + f entry) total = nan := by
  induction entries generalizing total with
  | nil => exact hnan.resolve_right fun ⟨_, hmem, _⟩ => List.not_mem_nil hmem
  | cons first rest ih =>
      apply ih
      rcases hnan with rfl | ⟨entry, hmem, hentry⟩
      · exact .inl (habsorbing.nan_add _)
      · rcases List.mem_cons.1 hmem with rfl | hmem
        · refine .inl ?_
          dsimp only
          rw [hentry, habsorbing.add_nan]
        · exact .inr ⟨entry, hmem, hentry⟩

theorem meanDeviation_eq_nan (period : Nat) (pivot : α) (hwindow : nan ∈ window) :
    meanDeviation period pivot window = nan := by
  have hsum : deviationSum pivot window = nan := by
    rw [deviationSum, ← List.foldl_reverse]
    exact foldl_add_eq_nan habsorbing
      (.inr ⟨nan, List.mem_reverse.2 hwindow, habsorbing.nan_sub pivot⟩)
  rw [meanDeviation, hsum, habsorbing.nan_div]

theorem weightedSum_eq_nan (period : Nat) (pivot : α) (hwindow : nan ∈ window) :
    weightedSum period pivot window = nan := by
  obtain ⟨place, hplace⟩ := List.getElem?_of_mem hwindow
  have hentry : (nan, place) ∈ window.zipIdx := List.mk_mem_zipIdx_iff_getElem?.2 hplace
  refine foldl_add_eq_nan habsorbing (.inr ⟨(nan, place), hentry, ?_⟩)
  rw [habsorbing.nan_sub, habsorbing.nan_mul]

/-- A kernel that is undefined over a window with an undefined value. -/
def Spoilt (value : α → List α → α) : Prop :=
  ∀ pivot window, pivot = nan ∨ nan ∈ window → value pivot window = nan

omit habsorbing in
/-- A window that is full without the run does not see it, and one that is not reaches into it. -/
theorem windowed_append_nan {value : α → List α → α} (hvalue : Spoilt value) (period : Nat)
    (latest : α) (past : List α) (count : Nat) :
    windowed period value (latest :: past ++ List.replicate count nan) =
      windowed period value (latest :: past) := by
  change (if ((latest :: past ++ List.replicate count nan).take period).length < period then nan
      else value latest ((latest :: past ++ List.replicate count nan).take period)) =
    if ((latest :: past).take period).length < period then nan
      else value latest ((latest :: past).take period)
  rcases Nat.lt_or_ge (latest :: past).length period with hshort | hfull
  · have hbefore : ((latest :: past).take period).length < period := by
      rw [List.length_take]
      omega
    rw [if_pos hbefore]
    split
    · rfl
    · next hlong =>
        rw [List.length_take, List.length_append, List.length_replicate] at hlong
        apply hvalue
        rw [List.take_append, List.take_replicate]
        exact .inr (List.mem_append_right _ (List.mem_replicate.2 ⟨by omega, rfl⟩))
  · rw [List.take_append_of_le_length hfull]

omit habsorbing in
theorem windowed_passesOver {value : α → List α → α} (hvalue : Spoilt value) (period : Nat) :
    PassesOver nan nan (windowed period value) where
  run count := by
    rw [List.replicate_succ, windowed]
    split
    · rfl
    · exact hvalue _ _ (.inl rfl)
  past := windowed_append_nan hvalue period

theorem basis_spoilt (period : Nat) :
    Spoilt fun (pivot : α) window => pivot + meanDeviation period pivot window := by
  rintro pivot window (rfl | hwindow)
  · exact habsorbing.nan_add _
  · dsimp only
    rw [meanDeviation_eq_nan habsorbing period pivot hwindow, habsorbing.add_nan]

end Windows

/-! ## Averages and bands -/

theorem simple_delay (period count : Nat) (xs : Series α) :
    simple period (delay nan count xs) = delay nan count (simple period xs) :=
  trailing_delay (windowed_passesOver (basis_spoilt habsorbing period) period) count xs

theorem weighted_delay (period count : Nat) (xs : Series α) :
    weighted period (delay nan count xs) = (weighted period xs).map (delay nan count) := by
  rw [weighted, weighted]
  cases (weightTotal period : Outcome α) with
  | error fault => rfl
  | ok total =>
      have hspoilt : Spoilt fun (pivot : α) window =>
          pivot + weightedSum period pivot window / total := by
        rintro pivot window (rfl | hwindow)
        · exact habsorbing.nan_add _
        · dsimp only
          rw [weightedSum_eq_nan habsorbing period pivot hwindow, habsorbing.nan_div,
            habsorbing.add_nan]
      exact congrArg Except.ok (trailing_delay (windowed_passesOver hspoilt period) count xs)

theorem smooth_delay (factor : α) (count : Nat) (xs : Series α) :
    smooth factor (delay nan count xs) = delay nan count (smooth factor xs) := by
  have hstep : smoothStep factor none nan = (none, nan) := by
    rw [smoothStep, habsorbing.nan_undefined]
    rfl
  exact delay_commute (length_smooth factor) (smooth_take factor) (scan_replicate_append hstep)
    count xs

theorem exponential_delay (period count : Nat) (xs : Series α) :
    exponential period (delay nan count xs) = delay nan count (exponential period xs) :=
  smooth_delay habsorbing ..

theorem wilder_delay (period count : Nat) (xs : Series α) :
    wilder period (delay nan count xs) = delay nan count (wilder period xs) :=
  smooth_delay habsorbing ..

theorem bands_delay (period : Nat) (width : α) (count : Nat) (xs : Series α) :
    bands period width (delay nan count xs) = (bands period width xs).lag count := by
  have hbasis := basis_spoilt habsorbing period
  -- Both outer lines are undefined where the basis is, whatever the deviation is.
  have hupper : Spoilt fun (pivot : α) window =>
      pivot + meanDeviation period pivot window + width * deviation period pivot window := by
    intro pivot window hnan
    exact (congrArg (· + _) (hbasis pivot window hnan)).trans (habsorbing.nan_add _)
  have hlower : Spoilt fun (pivot : α) window =>
      pivot + meanDeviation period pivot window - width * deviation period pivot window := by
    intro pivot window hnan
    exact (congrArg (· - _) (hbasis pivot window hnan)).trans (habsorbing.nan_sub _)
  simp only [bands, Bands.lag, lag_eq_delay, trailing_delay (windowed_passesOver hupper period),
    trailing_delay (windowed_passesOver hbasis period),
    trailing_delay (windowed_passesOver hlower period)]

/-! ## Oscillators -/

theorem convergence_delay (fast slow signal count : Nat) (xs : Series α) :
    convergence fast slow signal (delay nan count xs) =
      (convergence fast slow signal xs).lag count := by
  have hdifference : (nan : α) - nan = nan := habsorbing.nan_sub nan
  simp only [convergence, Convergence.lag, lag_eq_delay, exponential_delay habsorbing,
    zipWith_delay hdifference]

/-- A run without highs leaves the highest one as it is. -/
theorem highestOf_append_blank {blank : Extent α} (hblank : blank.high = nan)
    (window : List (Extent α)) (count : Nat) :
    highestOf (window ++ List.replicate count blank) = highestOf window := by
  refine foldr_append_replicate ?_ window count
  rw [hblank, habsorbing.less_nan]
  rfl

/-- A run without lows leaves the lowest one as it is. -/
theorem lowestOf_append_blank {blank : Extent α} (hblank : blank.low = nan)
    (window : List (Extent α)) (count : Nat) :
    lowestOf (window ++ List.replicate count blank) = lowestOf window := by
  refine foldr_append_replicate ?_ window count
  rw [hblank, habsorbing.nan_less]
  rfl

theorem stochasticOf_passesOver (period : Nat) :
    PassesOver (⟨nan, nan, nan⟩ : Extent α) nan (stochasticOf period) where
  run count := by
    have hwindow : (List.replicate (count + 1) (⟨nan, nan, nan⟩ : Extent α)).take period =
        [] ++ List.replicate (min period (count + 1)) ⟨nan, nan, nan⟩ := by
      rw [List.take_replicate, List.nil_append]
    rw [List.replicate_succ] at hwindow ⊢
    rw [stochasticOf, hwindow, highestOf_append_blank habsorbing rfl,
      lowestOf_append_blank habsorbing rfl]
    -- The extremes of nothing are the two infinities.
    change (if same (-infinity : α) infinity = true then _ else _) = _
    rw [habsorbing.infinities_differ, if_neg Bool.false_ne_true, habsorbing.nan_sub,
      habsorbing.nan_div, habsorbing.nan_mul]
  past latest past count := by
    rw [List.cons_append, stochasticOf, stochasticOf, ← List.cons_append, List.take_append,
      List.take_replicate, highestOf_append_blank habsorbing rfl,
      lowestOf_append_blank habsorbing rfl]

theorem stochastic_delay (period count : Nat) (source high low : Series α) :
    stochastic period (delay nan count source) (delay nan count high) (delay nan count low) =
      delay nan count (stochastic period source high low) := by
  have hrange : List.zip (delay nan count high) (delay nan count low) =
      delay (nan, nan) count (high.zip low) := zipWith_delay rfl count high low
  have hextent : ∀ ranges : List (α × α),
      List.zipWith (fun x (range : α × α) => (⟨x, range.1, range.2⟩ : Extent α))
        (delay nan count source) (delay (nan, nan) count ranges) =
      delay ⟨nan, nan, nan⟩ count (List.zipWith (fun x range => ⟨x, range.1, range.2⟩)
        source ranges) :=
    fun ranges => zipWith_delay rfl count source ranges
  rw [stochastic, hrange, hextent, trailing_delay (stochasticOf_passesOver habsorbing period),
    stochastic]

/-! ## Extremes -/

/-- Undefined values are passed over. -/
theorem bestOf_append_nan (better : α → α → Bool) (window : List α) (count : Nat) :
    bestOf better (window ++ List.replicate count nan) = bestOf better window := by
  refine foldr_append_replicate ?_ window count
  rw [habsorbing.nan_undefined]
  rfl

theorem extreme_delay (better : α → α → Bool) (period count : Nat) (xs : Series α) :
    extreme better period (delay nan count xs) = delay nan count (extreme better period xs) := by
  refine trailing_delay ⟨fun run => ?_, fun latest past run => ?_⟩ count xs
  · rw [List.take_replicate, ← List.nil_append (List.replicate _ _),
      bestOf_append_nan habsorbing]
    rfl
  · rw [List.take_append, List.take_replicate, bestOf_append_nan habsorbing]

theorem highest_delay (period count : Nat) (xs : Series α) :
    highest period (delay nan count xs) = delay nan count (highest period xs) :=
  extreme_delay habsorbing ..

theorem lowest_delay (period count : Nat) (xs : Series α) :
    lowest period (delay nan count xs) = delay nan count (lowest period xs) :=
  extreme_delay habsorbing ..

end Kernels

/-! ## All indicators -/

/-- Every indicator of a series some bars earlier is the indicator of the series some bars earlier;
the highs and lows of the stochastic are moved with its source. -/
structure CommutesWithLag (count period : Nat) (width : α) (fast slow signal : Nat)
    (xs high low : Series α) : Prop where
  simple : simple period (lag count xs) = lag count (simple period xs)
  weighted : weighted period (lag count xs) = (weighted period xs).map (lag count)
  exponential : exponential period (lag count xs) = lag count (exponential period xs)
  wilder : wilder period (lag count xs) = lag count (wilder period xs)
  highest : highest period (lag count xs) = lag count (highest period xs)
  lowest : lowest period (lag count xs) = lag count (lowest period xs)
  bands : bands period width (lag count xs) = (bands period width xs).lag count
  convergence :
    convergence fast slow signal (lag count xs) = (convergence fast slow signal xs).lag count
  stochastic : stochastic period (lag count xs) (lag count high) (lag count low) =
    lag count (stochastic period xs high low)

/-- An undefined run in front of a series delays its indicators and does nothing else. -/
theorem indicators_commute_with_lag (habsorbing : Absorbing α) (count period : Nat) (width : α)
    (fast slow signal : Nat) (xs high low : Series α) :
    CommutesWithLag count period width fast slow signal xs high low where
  simple := by simp only [lag_eq_delay, simple_delay habsorbing]
  weighted := by
    have hlag : lag count = delay (nan : α) count := funext fun ys => lag_eq_delay count ys
    rw [hlag, weighted_delay habsorbing]
  exponential := by simp only [lag_eq_delay, exponential_delay habsorbing]
  wilder := by simp only [lag_eq_delay, wilder_delay habsorbing]
  highest := by simp only [lag_eq_delay, highest_delay habsorbing]
  lowest := by simp only [lag_eq_delay, lowest_delay habsorbing]
  bands := by rw [lag_eq_delay, bands_delay habsorbing]
  convergence := by rw [lag_eq_delay, convergence_delay habsorbing]
  stochastic := by simp only [lag_eq_delay, stochastic_delay habsorbing]

/-- A price that rises, falls back and rises again. -/
def zigzag (α : Type) [Arith α] : Series α := [ofNat 3, ofNat 7, ofNat 5, ofNat 6, ofNat 9]

/-- Windows of two bars over a series that comes a bar late, and that is gone after six. -/
theorem indicators_commute_with_lag_zigzag :
    Absorbing Float ∧ Absorbing Exact ∧
      (simple 2 (lag 1 (zigzag Float))).map Arith.text = ["nan", "nan", "5.0", "6.0", "5.5"] ∧
      CommutesWithLag 1 2 (ofNat 2) 2 3 2 (zigzag Float) (zigzag Float) (zigzag Float) ∧
      CommutesWithLag 6 2 (ofNat 2) 2 3 2 (zigzag Exact) (zigzag Exact) (zigzag Exact) :=
  ⟨Double.absorbing, Exact.absorbing, by decide +kernel,
    indicators_commute_with_lag Double.absorbing 1 2 (ofNat 2) 2 3 2 _ _ _,
    indicators_commute_with_lag Exact.absorbing 6 2 (ofNat 2) 2 3 2 _ _ _⟩

end Backtest.Series
