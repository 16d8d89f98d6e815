import Backtest.Proofs.Decimal.Steady
import Backtest.Proofs.Outcome
import Backtest.Series.Band
import Backtest.Series.Extreme
import Backtest.Series.Oscillator

/-!
# Indicators of a constant series

Over a series that rests at a finite number, averages rest at that number, the deviation within a
window and the difference of two averages rest at zero, the relative strength rests at one hundred,
and no level is crossed.  Each kernel sums up, smooths or averages values that rest; what its step
preserves, it preserves over all bars (`forall_mem_scan`).
-/

namespace Backtest.Series

open Arith

/-! ## What all values of a scan have in common -/

section Scan

variable {ι σ β : Type} {given : ι → Prop} {goal : β → Prop}

/-- What a step makes of good states and entries holds of all values of a scan. -/
theorem forall_mem_scan {step : σ → ι → σ × β} (sound : σ → Prop)
    (hstep : ∀ state x, sound state → given x → sound (step state x).1 ∧ goal (step state x).2)
    {state : σ} (hstate : sound state) {xs : List ι} (hxs : ∀ x ∈ xs, given x) :
    ∀ y ∈ scan step state xs, goal y := by
  induction xs generalizing state with
  | nil => exact nofun
  | cons x rest ih =>
      obtain ⟨hnext, hvalue⟩ := hstep state x hstate (hxs x List.mem_cons_self)
      exact List.forall_mem_cons.2
        ⟨hvalue, ih hnext fun z hz => hxs z (List.mem_cons_of_mem _ hz)⟩

theorem forall_mem_trailing {value : List ι → β}
    (hvalue : ∀ past, (∀ x ∈ past, given x) → goal (value past)) {xs : List ι}
    (hxs : ∀ x ∈ xs, given x) : ∀ y ∈ trailing value xs, goal y :=
  forall_mem_scan (fun past => ∀ x ∈ past, given x)
    (fun past x hpast hx =>
      have hall := List.forall_mem_cons.2 ⟨hx, hpast⟩
      ⟨hall, hvalue (x :: past) hall⟩)
    (by exact nofun) hxs

theorem forall_mem_stepwise (given : ι → Prop) {value : Option ι → ι → β}
    (hvalue : ∀ last x, (∀ before, last = some before → given before) → given x →
      goal (value last x)) {xs : List ι} (hxs : ∀ x ∈ xs, given x) :
    ∀ y ∈ stepwise value xs, goal y :=
  forall_mem_scan (fun last => ∀ before, last = some before → given before)
    (fun last x hlast hx => ⟨by rintro _ ⟨⟩; exact hx, hvalue last x hlast hx⟩) (by exact nofun) hxs

theorem forall_mem_zipWith {γ : Type} {f : ι → γ → β} {xs : List ι} {ys : List γ}
    (hgoal : ∀ x ∈ xs, ∀ y ∈ ys, goal (f x y)) : ∀ z ∈ List.zipWith f xs ys, goal z := by
  induction xs generalizing ys with
  | nil => exact nofun
  | cons x rest ih =>
      cases ys with
      | nil => exact nofun
      | cons y others =>
          refine List.forall_mem_cons.2
            ⟨hgoal x List.mem_cons_self y List.mem_cons_self, ih fun x hx y hy => ?_⟩
          exact hgoal x (List.mem_cons_of_mem _ hx) y (List.mem_cons_of_mem _ hy)

end Scan

variable {α : Type} [Arith α]

/-- Each value of a series is a given number or undefined. -/
def Rests (c : α) (xs : Series α) : Prop := ∀ x ∈ xs, RestsAt c x

/-- No bar of a condition is active. -/
def Never (flags : Flags) : Prop := ∀ flag ∈ flags, flag = false

variable (hsteady : Steady α) {c d : α} (hc : isFinite c = true) {pivot : α} {window : List α}
  {xs ys : Series α}
include hsteady

/-! ## Windows -/

theorem rests_windowed {period : Nat} {value : α → List α → α}
    (hvalue : ∀ pivot window, RestsAt c pivot → Rests c window → RestsAt d (value pivot window))
    (hxs : Rests c xs) : Rests d (trailing (windowed period value) xs) := by
  refine forall_mem_trailing (fun past hpast => ?_) hxs
  cases past with
  | nil => exact hsteady.restsAt_nan d
  | cons latest past =>
      rw [windowed]
      split
      · exact hsteady.restsAt_nan d
      · exact hvalue _ _ (hpast latest List.mem_cons_self) fun x hx =>
          hpast x (List.mem_of_mem_take hx)

include hc

theorem restsAt_deviationSum (hpivot : RestsAt c pivot) (hwindow : Rests c window) :
    RestsAt zero (deviationSum pivot window) := by
  induction window with
  | nil => exact hsteady.restsAt_self zero
  | cons x rest ih =>
      obtain ⟨hx, hrest⟩ := List.forall_mem_cons.1 hwindow
      exact hsteady.restsAt_add_zero hsteady.zero_finite (ih hrest)
        (hsteady.restsAt_sub hc hx hpivot)

theorem restsAt_meanDeviation (period : Nat) (hpivot : RestsAt c pivot)
    (hwindow : Rests c window) : RestsAt zero (meanDeviation period pivot window) :=
  hsteady.restsAt_zero_div (restsAt_deviationSum hsteady hc hpivot hwindow) _

theorem restsAt_mean (period : Nat) (hpivot : RestsAt c pivot) (hwindow : Rests c window) :
    RestsAt c (pivot + meanDeviation period pivot window) :=
  hsteady.restsAt_add_zero hc hpivot (restsAt_meanDeviation hsteady hc period hpivot hwindow)

theorem restsAt_weightedSum (period : Nat) (hpivot : RestsAt c pivot) (hwindow : Rests c window) :
    RestsAt zero (weightedSum period pivot window) := by
  have hfold (entries : List (α × Nat)) (total : α) (htotal : RestsAt zero total)
      (hentries : ∀ entry ∈ entries, RestsAt c entry.1) :
      RestsAt zero (entries.foldl (fun total entry =>
        total + (entry.1 - pivot) * ofNat (period - entry.2)) total) := by
    induction entries generalizing total with
    | nil => exact htotal
    | cons entry rest ih =>
        obtain ⟨hentry, hrest⟩ := List.forall_mem_cons.1 hentries
        have hterm := hsteady.restsAt_zero_mul (hsteady.restsAt_sub hc hentry hpivot)
          (ofNat (period - entry.2))
        exact ih _ (hsteady.restsAt_add_zero hsteady.zero_finite htotal hterm) hrest
  exact hfold _ zero (hsteady.restsAt_self zero) fun entry hentry =>
    hwindow entry.1 (List.fst_mem_of_mem_zipIdx hentry)

theorem restsAt_deviation (period : Nat) (hpivot : RestsAt c pivot) (hwindow : Rests c window) :
    RestsAt zero (deviation period pivot window) := by
  have hmean := restsAt_meanDeviation hsteady hc period hpivot hwindow
  have hsquares (rest : List α) (hrest : Rests c rest) :
      RestsAt zero (rest.foldr (fun x total => total +
        (x - pivot - meanDeviation period pivot window) *
          (x - pivot - meanDeviation period pivot window)) zero) := by
    induction rest with
    | nil => exact hsteady.restsAt_self zero
    | cons x rest ih =>
        obtain ⟨hx, hrest⟩ := List.forall_mem_cons.1 hrest
        have hdistance := hsteady.restsAt_sub_zero hsteady.zero_finite
          (hsteady.restsAt_sub hc hx hpivot) hmean
        exact hsteady.restsAt_add_zero hsteady.zero_finite (ih hrest)
          (hsteady.restsAt_zero_mul hdistance _)
  exact hsteady.restsAt_sqrt_zero (hsteady.restsAt_zero_div (hsquares window hwindow) _)

/-! ## Averages -/

theorem rests_simple (period : Nat) (hxs : Rests c xs) : Rests c (simple period xs) :=
  rests_windowed hsteady (fun _ _ => restsAt_mean hsteady hc period) hxs

theorem rests_weighted {period : Nat} (hxs : Rests c xs) (hys : weighted period xs = .ok ys) :
    Rests c ys := by
  obtain ⟨total, _, hys⟩ := Outcome.bind_eq_ok.1 hys
  injection hys with hys
  rw [← hys]
  refine rests_windowed hsteady (fun pivot window hpivot hwindow => ?_) hxs
  exact hsteady.restsAt_add_zero hc hpivot
    (hsteady.restsAt_zero_div (restsAt_weightedSum hsteady hc period hpivot hwindow) total)

theorem rests_smooth (factor : α) (hxs : Rests c xs) : Rests c (smooth factor xs) := by
  refine forall_mem_scan (fun state => ∀ last, state = some last → RestsAt c last)
    (fun state x hstate hx => ?_) (by exact nofun) hxs
  cases state with
  | none =>
      rw [smoothStep]
      split
      · exact ⟨nofun, hsteady.restsAt_nan c⟩
      · exact ⟨by rintro _ ⟨⟩; exact hx, hx⟩
  | some last =>
      have hlast := hstate last rfl
      have hnext : RestsAt c (last + factor * (x - last)) := hsteady.restsAt_add_zero hc hlast
        (hsteady.restsAt_mul_zero (hsteady.restsAt_sub hc hx hlast) factor)
      exact ⟨by rintro _ ⟨⟩; exact hnext, hnext⟩

theorem rests_average {kind : AverageKind} {period : Nat} (hxs : Rests c xs)
    (hys : average kind period xs = .ok ys) : Rests c ys := by
  cases kind with
  | simple =>
      injection hys with hys
      exact hys ▸ rests_simple hsteady hc period hxs
  | exponential =>
      injection hys with hys
      exact hys ▸ rests_smooth hsteady hc _ hxs
  | weighted => exact rests_weighted hsteady hc hxs hys

/-! ## Convergence, strength and bands -/

/-- Both lines of the convergence rest at zero. -/
theorem rests_convergence (fast slow signal : Nat) (hxs : Rests c xs) :
    Rests zero (convergence fast slow signal xs).line ∧
      Rests zero (convergence fast slow signal xs).signal := by
  have hline : Rests zero (convergence fast slow signal xs).line :=
    forall_mem_zipWith fun x hx y hy => hsteady.restsAt_sub hc
      (rests_smooth hsteady hc _ hxs x hx) (rests_smooth hsteady hc _ hxs y hy)
  exact ⟨hline, rests_smooth hsteady hsteady.zero_finite _ hline⟩

omit hc in
theorem restsAt_strengthIndex (gain : α) {loss : α} (hloss : RestsAt zero loss) :
    RestsAt (ofNat 100) (strengthIndex gain loss) := by
  rw [strengthIndex]
  split
  · exact hsteady.restsAt_self _
  · next hnot =>
      have hundefined := hloss.resolve_right hnot
      exact .inl (hsteady.sub_spreads _ _ (.inr (hsteady.div_spreads _ _ (.inr
        (hsteady.add_spreads _ _ (.inr (hsteady.div_spreads gain loss (.inr hundefined))))))))

theorem restsAt_strengthStep (period : Nat) {state : StrengthState α} {x : α}
    (hseen : state.seen ≠ 0 → RestsAt c state.last) (hloss : RestsAt zero state.loss)
    (hx : RestsAt c x) :
    (RestsAt c (strengthStep period state x).1.last ∧
      RestsAt zero (strengthStep period state x).1.loss) ∧
      RestsAt (ofNat 100) (strengthStep period state x).2 := by
  rw [strengthStep]
  split
  · exact ⟨⟨hx, hloss⟩, hsteady.restsAt_nan _⟩
  · next hlater =>
      have hchange : RestsAt zero (x - state.last) := hsteady.restsAt_sub hc hx (hseen hlater)
      have hrises : less zero (x - state.last) = false :=
        hsteady.not_less (hsteady.restsAt_self zero) hchange
      have hfalls : less (x - state.last) zero = false :=
        hsteady.not_less hchange (hsteady.restsAt_self zero)
      have hsummed : RestsAt zero (state.loss - (x - state.last)) :=
        hsteady.restsAt_sub_zero hsteady.zero_finite hloss hchange
      have hsmoothed : RestsAt zero
          ((state.loss * ofNat (period - 1) + zero) / ofNat period) :=
        hsteady.restsAt_zero_div (hsteady.restsAt_add_zero hsteady.zero_finite
          (hsteady.restsAt_zero_mul hloss _) (hsteady.restsAt_self zero)) _
      simp only [hrises, hfalls, Bool.false_eq_true, if_false]
      split
      · split
        · have hmean := hsteady.restsAt_zero_div hsummed (ofNat period)
          exact ⟨⟨hx, hmean⟩, restsAt_strengthIndex hsteady _ hmean⟩
        · exact ⟨⟨hx, hsummed⟩, hsteady.restsAt_nan _⟩
      · exact ⟨⟨hx, hsmoothed⟩, restsAt_strengthIndex hsteady _ hsmoothed⟩

theorem rests_relativeStrength (period : Nat) (hxs : Rests c xs) :
    Rests (ofNat 100) (relativeStrength period xs) := by
  refine forall_mem_scan
    (fun state => (state.seen ≠ 0 → RestsAt c state.last) ∧ RestsAt zero state.loss)
    (fun state x hstate hx => ?_) ⟨fun hseen => absurd rfl hseen, hsteady.restsAt_self zero⟩ hxs
  obtain ⟨⟨hlast, hloss⟩, hvalue⟩ :=
    restsAt_strengthStep hsteady hc period hstate.1 hstate.2 hx
  exact ⟨⟨fun _ => hlast, hloss⟩, hvalue⟩

/-- All three bands rest at the number itself, whatever their width is. -/
theorem rests_bands (period : Nat) (width : α) (hxs : Rests c xs) :
    Rests c (bands period width xs).upper ∧ Rests c (bands period width xs).lower := by
  constructor
  · refine rests_windowed hsteady (fun pivot window hpivot hwindow => ?_) hxs
    exact hsteady.restsAt_add_zero hc (restsAt_mean hsteady hc period hpivot hwindow)
      (hsteady.restsAt_mul_zero (restsAt_deviation hsteady hc period hpivot hwindow) width)
  · refine rests_windowed hsteady (fun pivot window hpivot hwindow => ?_) hxs
    exact hsteady.restsAt_sub_zero hc (restsAt_mean hsteady hc period hpivot hwindow)
      (hsteady.restsAt_mul_zero (restsAt_deviation hsteady hc period hpivot hwindow) width)

/-! ## Tests -/

omit hc

omit hsteady in
/-- A test between two bars that fails at rest never holds between a line at rest and a level. -/
theorem never_crosses {test : Option (α × α) → α × α → Bool} (level : α) (bars : Nat)
    (hfirst : ∀ bar, test none bar = false)
    (htest : ∀ x y, RestsAt c x → RestsAt c y → test (some (x, level)) (y, level) = false)
    (hxs : Rests c xs) : Never (stepwise test (xs.zip (List.replicate bars level))) := by
  refine forall_mem_stepwise (fun bar => RestsAt c bar.1 ∧ bar.2 = level)
    (fun last bar hlast hbar => ?_) fun bar hbar => ?_
  · obtain ⟨y, _⟩ := bar
    obtain ⟨hy, rfl⟩ := hbar
    cases last with
    | none => exact hfirst _
    | some before =>
        obtain ⟨x, _⟩ := before
        obtain ⟨hx, hsame⟩ := hlast _ rfl
        subst hsame
        exact htest x y hx hy
  · obtain ⟨hx, hy⟩ := List.of_mem_zip hbar
    exact ⟨hxs _ hx, List.eq_of_mem_replicate hy⟩

theorem never_crossover (level : α) (bars : Nat) (hxs : Rests c xs) :
    Never (crossover xs (List.replicate bars level)) := by
  refine never_crosses level bars (fun _ => rfl) (fun x y hx hy => ?_) hxs
  cases hbefore : less x level with
  | false => simp [hbefore]
  | true => simp [hsteady.not_rises hx hy hbefore]

theorem never_crossunder (level : α) (bars : Nat) (hxs : Rests c xs) :
    Never (crossunder xs (List.replicate bars level)) := by
  refine never_crosses level bars (fun _ => rfl) (fun x y hx hy => ?_) hxs
  cases hbefore : less level x with
  | false => simp [hbefore]
  | true => simp [hsteady.not_falls hx hy hbefore]

end Backtest.Series
