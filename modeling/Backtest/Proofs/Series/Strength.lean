import Backtest.Proofs.Decimal.Absorbing
import Backtest.Proofs.Ideal
import Backtest.Proofs.Series.Length
import Backtest.Proofs.Series.Rest

/-!
# The relative strength index

The index is told by two averages, of the gains and of the losses, that are sums at first and then
roll on (`heldChange`).  Over numbers they are Wilder's averages, one step at a time
(`strengthStep_states`).  No average is negative, so the index is between 0 and 100; it is 100
without losses, and a series that is turned over has its gains and losses exchanged
(`relativeStrength_oscillates`).

Over a series that starts with an undefined value the index is lost.  The sum takes every change
that is no rise for a loss, also one that is undefined, and an undefined average stays so: the state
is spoilt, and every step leaves it spoilt (`StrengthState.IsSpoilt.next`).  So unlike the other
indicators the index of a series that starts late is not the later index, unless there is none
(`strength_of_late_series`).
-/

namespace Backtest.Series

open Arith

/-! ## A series that starts late -/

section Late

variable {α : Type} [Arith α] {period : Nat}

/-- The state after an undefined first value: the next change is undefined, or the losses are. -/
def StrengthState.IsSpoilt (state : StrengthState α) : Prop :=
  state.seen = 1 ∧ state.last = nan ∨ 1 < state.seen ∧ state.loss = nan

/-- In too short a series no value is defined. -/
theorem scan_strengthStep_of_short {state : StrengthState α} {xs : Series α}
    (hshort : state.seen + xs.length ≤ period) :
    ∀ y ∈ scan (strengthStep period) state xs, y = nan := by
  induction xs generalizing state with
  | nil => exact nofun
  | cons x rest ih =>
      rw [List.length_cons] at hshort
      have hstep : (strengthStep period state x).2 = nan ∧
          (strengthStep period state x).1.seen = state.seen + 1 := by
        rw [strengthStep]
        split
        · next hfirst => exact ⟨rfl, by rw [hfirst]⟩
        · rw [if_pos (by omega), if_neg (by omega)]
          exact ⟨rfl, rfl⟩
      exact List.forall_mem_cons.2 ⟨hstep.1, ih (by omega)⟩

variable (habsorbing : Absorbing α) (hnan : same (nan : α) zero = false)
include habsorbing

include hnan in
theorem strengthIndex_nan (gain : α) : strengthIndex gain nan = nan := by
  have hratio : gain / nan = nan := habsorbing.op_eq_nan habsorbing.div_spreads (.inr rfl)
  rw [strengthIndex, hnan, if_neg Bool.false_ne_true, hratio, habsorbing.add_nan]
  have hquotient : (ofNat 100 / nan : α) = nan :=
    habsorbing.op_eq_nan habsorbing.div_spreads (.inr rfl)
  rw [hquotient]
  exact habsorbing.op_eq_nan habsorbing.sub_spreads (.inr rfl)

/-- The losses up to a bar are undefined once the state is spoilt: a change that is undefined is no
rise, and so it is taken for a loss. -/
theorem StrengthState.IsSpoilt.loss {state : StrengthState α} (hstate : state.IsSpoilt) (x : α) :
    (if less zero (x - state.last) then state.loss else state.loss - (x - state.last)) = nan := by
  rcases hstate with ⟨_, hlast⟩ | ⟨_, hloss⟩
  · have hchange : x - state.last = nan :=
      habsorbing.op_eq_nan habsorbing.sub_spreads (.inr hlast)
    rw [hchange, habsorbing.less_nan, if_neg Bool.false_ne_true]
    exact habsorbing.op_eq_nan habsorbing.sub_spreads (.inr rfl)
  · rw [hloss, habsorbing.nan_sub, ite_self]

include hnan

theorem StrengthState.IsSpoilt.next (hperiod : 1 ≤ period) {state : StrengthState α}
    (hstate : state.IsSpoilt) (x : α) :
    (strengthStep period state x).1.IsSpoilt ∧ (strengthStep period state x).2 = nan := by
  have hseen : 1 ≤ state.seen := hstate.elim (fun h => h.1.ge) fun h => h.1.le
  have hlater : 1 < state.seen + 1 := Nat.lt_succ_of_le hseen
  have hsummed := hstate.loss habsorbing x
  simp only [strengthStep, if_neg (Nat.one_le_iff_ne_zero.1 hseen)]
  split
  · rw [hsummed]
    split
    · rw [habsorbing.nan_div, strengthIndex_nan habsorbing hnan]
      exact ⟨.inr ⟨hlater, rfl⟩, rfl⟩
    · exact ⟨.inr ⟨hlater, rfl⟩, rfl⟩
  · next hrolling =>
      have hloss : state.loss = nan :=
        (hstate.resolve_left fun h => hrolling (h.1.trans_le hperiod)).2
      rw [hloss, habsorbing.nan_mul, habsorbing.nan_add, habsorbing.nan_div,
        strengthIndex_nan habsorbing hnan]
      exact ⟨.inr ⟨hlater, rfl⟩, rfl⟩

/-- After an undefined first value the index is never defined. -/
theorem relativeStrength_nan_cons (hperiod : 1 ≤ period) (xs : Series α) :
    relativeStrength period (nan :: xs) = List.replicate (xs.length + 1) nan := by
  have hrest : ∀ y ∈ scan (strengthStep period) ⟨1, nan, zero, zero⟩ xs, y = nan :=
    forall_mem_scan StrengthState.IsSpoilt
      (fun state x hstate (_ : True) => hstate.next habsorbing hnan hperiod x)
      (.inl ⟨rfl, rfl⟩) fun _ _ => trivial
  refine List.eq_replicate_iff.2 ⟨length_relativeStrength .., ?_⟩
  exact List.forall_mem_cons.2 ⟨rfl, hrest⟩

/-- A run of undefined values in front of a series leaves nothing of its index.  So the index of the
later series is the later index only if there is no such run, or no index. -/
theorem strength_of_late_series (hperiod : 1 ≤ period) (count : Nat) (xs : Series α) :
    (0 < count → relativeStrength period (List.replicate count nan ++ xs) =
      List.replicate (count + xs.length) nan) ∧
    (relativeStrength period (List.replicate count nan ++ xs) =
        List.replicate count nan ++ relativeStrength period xs ↔
      count = 0 ∨ ∀ y ∈ relativeStrength period xs, y = nan) ∧
    (xs.length ≤ period → ∀ y ∈ relativeStrength period xs, y = nan) := by
  have hlost (later : Nat) : relativeStrength period (List.replicate (later + 1) nan ++ xs) =
      List.replicate (later + 1 + xs.length) nan := by
    rw [List.replicate_succ, List.cons_append, relativeStrength_nan_cons habsorbing hnan hperiod,
      List.length_append, List.length_replicate, Nat.add_right_comm]
  refine ⟨fun hcount => ?_, ?_, fun hshort => ?_⟩
  · obtain ⟨later, rfl⟩ := Nat.exists_eq_add_of_le' hcount
    exact hlost later
  · cases count with
    | zero => exact iff_of_true rfl (.inl rfl)
    | succ later =>
        rw [hlost, List.replicate_add, List.append_cancel_left_eq, eq_comm, List.eq_replicate_iff,
          length_relativeStrength]
        exact ⟨fun hall => .inr hall.2,
          fun hall => ⟨rfl, hall.resolve_left (Nat.succ_ne_zero later)⟩⟩
  · exact scan_strengthStep_of_short ((Nat.zero_add _).trans_le hshort)

end Late

/-- A price that rises and falls back a little. -/
def hump : Series Float := [1, 4, 3]

/-- The index of the later series is undefined at the bar at which that of the series is defined. -/
theorem strength_of_late_series_hump :
    Absorbing Float ∧ same (nan : Float) zero = false ∧ 1 ≤ 2 ∧
      (relativeStrength 2 hump).map Arith.text = ["nan", "nan", "75.0"] ∧
      (relativeStrength 2 (List.replicate 1 nan ++ hump) = List.replicate 4 nan) ∧
      (relativeStrength 3 (List.replicate 1 nan ++ hump) =
        List.replicate 1 nan ++ relativeStrength 3 hump) := by
  have hnan : same (nan : Float) zero = false := by decide +kernel
  have hlost :=
    (strength_of_late_series Double.absorbing hnan (by decide : 1 ≤ 2) 1 hump).1 Nat.one_pos
  obtain ⟨_, hkept, hshort⟩ :=
    strength_of_late_series Double.absorbing hnan (by decide : 1 ≤ 3) 1 hump
  exact ⟨Double.absorbing, hnan, by decide, by decide +kernel, hlost,
    hkept.2 (.inr (hshort (Nat.le_refl 3)))⟩

/-- One undefined value in front of three numbers does more than delay their index. -/
theorem late_strength_lost :
    relativeStrength 2 (List.replicate 1 nan ++ hump) ≠
      List.replicate 1 nan ++ relativeStrength 2 hump := by
  intro hsame
  have htexts := congrArg (List.map Arith.text) hsame
  revert htexts
  decide +kernel

/-! ## Wilder's averages -/

section Wilder

variable (x : ℕ → ℝ) (period bar : ℕ)

/-- How far the numbers rise at a bar. -/
noncomputable def rise : ℝ := max (x bar - x (bar - 1)) 0

/-- How far the numbers fall at a bar. -/
noncomputable def fall : ℝ := max (x (bar - 1) - x bar) 0

/-- Wilder's average of changes some bars after bar `period`: at first the mean of the first
`period` changes, and then each change replaces one part in `period` of the average. -/
noncomputable def wilderAverage (change : ℕ → ℝ) (period : ℕ) : ℕ → ℝ
  | 0 => (∑ bar ∈ Finset.Icc 1 period, change bar) / period
  | later + 1 =>
      (wilderAverage change period later * (period - 1) + change (period + later + 1)) / period

/-- Wilder's average of the rises up to a bar. -/
noncomputable def averageRise : ℝ := wilderAverage (rise x) period (bar - period)

/-- Wilder's average of the falls up to a bar. -/
noncomputable def averageFall : ℝ := wilderAverage (fall x) period (bar - period)

/-- The strength of gains against losses, from 0 to 100. -/
noncomputable def strengthOf (gain loss : ℝ) : ℝ :=
  if loss = 0 then (100 : ℕ) else (100 : ℕ) - (100 : ℕ) / (1 + gain / loss)

end Wilder

section Numbers

open Backtest.Ideal

variable {x change : ℕ → ℝ} {period : ℕ} {gain loss : ℝ}

/-! ### The strength of two averages -/

theorem strengthOf_eq (gain loss : ℝ) :
    strengthOf gain loss = if loss = 0 then 100 else 100 - 100 / (1 + gain / loss) := by
  rw [strengthOf, Nat.cast_ofNat]

theorem strengthIndex_finite (hgain : 0 ≤ gain) (hloss : 0 ≤ loss) :
    strengthIndex (finite gain) (finite loss) = finite (strengthOf gain loss) := by
  rw [strengthIndex, strengthOf_eq, zero_eq_finite, same_finite]
  by_cases hzero : loss = 0
  · rw [if_pos (decide_eq_true hzero), if_pos hzero, ofNat_eq_finite, Nat.cast_ofNat]
  · have hratio : 0 < 1 + gain / loss := add_pos_of_pos_of_nonneg one_pos (div_nonneg hgain hloss)
    rw [if_neg (by simpa using hzero), if_neg hzero, div_finite hzero, one, ofNat_eq_finite,
      ofNat_eq_finite, Nat.cast_one, Nat.cast_ofNat, add_finite, div_finite hratio.ne', sub_finite]

theorem strengthOf_mem_Icc (hgain : 0 ≤ gain) (hloss : 0 ≤ loss) :
    strengthOf gain loss ∈ Set.Icc 0 100 := by
  rw [strengthOf_eq]
  split
  · norm_num
  · next hnonzero =>
      have hratio : 1 ≤ 1 + gain / loss := le_add_of_nonneg_right (div_nonneg hgain hloss)
      have hshare : 100 / (1 + gain / loss) ≤ 100 := div_le_self (by norm_num) hratio
      have hpositive : 0 ≤ 100 / (1 + gain / loss) := by positivity
      exact ⟨sub_nonneg.2 hshare, sub_le_self _ hpositive⟩

/-- Where there are gains and losses, each has the strength that the other lacks. -/
theorem strengthOf_swap (hgain : 0 < gain) (hloss : 0 < loss) :
    strengthOf loss gain = 100 - strengthOf gain loss := by
  rw [strengthOf_eq, strengthOf_eq, if_neg hgain.ne', if_neg hloss.ne']
  field_simp
  ring

/-! ### Averages of changes -/

theorem rise_nonneg (x : ℕ → ℝ) (bar : ℕ) : 0 ≤ rise x bar := le_max_right ..

theorem fall_nonneg (x : ℕ → ℝ) (bar : ℕ) : 0 ≤ fall x bar := le_max_right ..

theorem wilderAverage_nonneg (hperiod : 1 ≤ period) (hchange : ∀ bar, 0 ≤ change bar) (later : ℕ) :
    0 ≤ wilderAverage change period later := by
  have hrest : (0 : ℝ) ≤ period - 1 := sub_nonneg.2 (Nat.one_le_cast.2 hperiod)
  induction later with
  | zero => exact div_nonneg (Finset.sum_nonneg fun bar _ => hchange bar) (Nat.cast_nonneg period)
  | succ later ih =>
      exact div_nonneg (add_nonneg (mul_nonneg ih hrest) (hchange _)) (Nat.cast_nonneg period)

/-- As long as nothing changes the average of the changes is zero. -/
theorem wilderAverage_eq_zero (later : ℕ)
    (hchange : ∀ bar, 1 ≤ bar → bar ≤ period + later → change bar = 0) :
    wilderAverage change period later = 0 := by
  induction later with
  | zero =>
      rw [wilderAverage, Finset.sum_eq_zero, zero_div]
      exact fun bar hbar => hchange bar (Finset.mem_Icc.1 hbar).1 (Finset.mem_Icc.1 hbar).2
  | succ later ih =>
      have hbefore := ih fun bar hfirst hlast => hchange bar hfirst (hlast.trans (Nat.le_succ _))
      rw [wilderAverage, hbefore, hchange _ (by omega) (by omega), zero_mul, add_zero, zero_div]

/-- A series that is turned over rises where it fell. -/
theorem rise_neg (x : ℕ → ℝ) : rise (fun bar => -x bar) = fall x := by
  funext bar
  rw [rise, fall, neg_sub_neg]

theorem fall_neg (x : ℕ → ℝ) : fall (fun bar => -x bar) = rise x := by
  funext bar
  rw [rise, fall, neg_sub_neg]

/-! ### The walk -/

/-- What is held of some changes at a bar: their sum at first, and their average from bar `period`
on. -/
noncomputable def heldChange (change : ℕ → ℝ) (period bar : ℕ) : ℝ :=
  if bar < period then ∑ earlier ∈ Finset.Icc 1 bar, change earlier
  else wilderAverage change period (bar - period)

theorem heldChange_zero (change : ℕ → ℝ) (hperiod : 1 ≤ period) :
    heldChange change period 0 = 0 := by
  rw [heldChange, if_pos (Nat.lt_of_succ_le hperiod)]
  exact Finset.sum_empty

theorem heldChange_of_lt (change : ℕ → ℝ) {bar : ℕ} (hbar : bar + 1 < period) :
    heldChange change period (bar + 1) = heldChange change period bar + change (bar + 1) := by
  rw [heldChange, heldChange, if_pos hbar, if_pos (Nat.lt_of_succ_lt hbar),
    Finset.sum_Icc_succ_top (Nat.le_add_left 1 bar)]

theorem heldChange_of_eq (change : ℕ → ℝ) {bar : ℕ} (hbar : bar + 1 = period) :
    heldChange change period (bar + 1) =
      (heldChange change period bar + change (bar + 1)) / period := by
  subst hbar
  rw [heldChange, heldChange, if_neg (Nat.lt_irrefl _), if_pos (Nat.lt_succ_self bar), Nat.sub_self,
    wilderAverage, Finset.sum_Icc_succ_top (Nat.le_add_left 1 bar)]

theorem heldChange_of_le (change : ℕ → ℝ) {bar : ℕ} (hbar : period ≤ bar) :
    heldChange change period (bar + 1) =
      (heldChange change period bar * (period - 1) + change (bar + 1)) / period := by
  rw [heldChange, heldChange, if_neg (by omega), if_neg (by omega), Nat.succ_sub hbar,
    wilderAverage, Nat.add_sub_cancel' hbar]

/-- The states of the index over a series of numbers. -/
noncomputable def strengthStates (x : ℕ → ℝ) (period : ℕ) : ℕ → StrengthState Ideal
  | 0 => ⟨0, zero, zero, zero⟩
  | bar + 1 => ⟨bar + 1, finite (x bar), finite (heldChange (rise x) period bar),
      finite (heldChange (fall x) period bar)⟩

theorem less_zero_change (before after : ℝ) :
    less zero (finite after - finite before) = true ↔ before < after := by
  rw [sub_finite, zero_eq_finite, less_finite, decide_eq_true_iff, sub_pos]

theorem less_change_zero (before after : ℝ) :
    less (finite after - finite before) zero = true ↔ after < before := by
  rw [sub_finite, zero_eq_finite, less_finite, decide_eq_true_iff, sub_neg]

/-- A change adds its rise to the gains. -/
theorem add_rise (before after total : ℝ) :
    (if less zero (finite after - finite before) then
        finite total + (finite after - finite before) else finite total) =
      finite (total + max (after - before) 0) := by
  split
  · next hrises =>
      have hlt := (less_zero_change before after).1 hrises
      rw [max_eq_left (sub_nonneg.2 hlt.le), sub_finite, add_finite]
  · next hnot =>
      have hle := not_lt.1 (mt (less_zero_change before after).2 hnot)
      rw [max_eq_right (sub_nonpos.2 hle), add_zero]

/-- A change that is not a rise adds its fall to the losses. -/
theorem add_fall (before after total : ℝ) :
    (if less zero (finite after - finite before) then finite total
      else finite total - (finite after - finite before)) =
      finite (total + max (before - after) 0) := by
  split
  · next hrises =>
      have hlt := (less_zero_change before after).1 hrises
      rw [max_eq_right (sub_nonpos.2 hlt.le), add_zero]
  · next hnot =>
      have hle := not_lt.1 (mt (less_zero_change before after).2 hnot)
      rw [max_eq_left (sub_nonneg.2 hle), sub_finite, sub_finite, sub_eq_add_neg, neg_sub]

theorem rise_of_change (before after : ℝ) :
    (if less zero (finite after - finite before) then finite after - finite before else zero) =
      finite (max (after - before) 0) := by
  split
  · next hrises =>
      have hlt := (less_zero_change before after).1 hrises
      rw [max_eq_left (sub_nonneg.2 hlt.le), sub_finite]
  · next hnot =>
      have hle := not_lt.1 (mt (less_zero_change before after).2 hnot)
      rw [max_eq_right (sub_nonpos.2 hle), zero_eq_finite]

theorem fall_of_change (before after : ℝ) :
    (if less (finite after - finite before) zero then -(finite after - finite before) else zero) =
      finite (max (before - after) 0) := by
  split
  · next hfalls =>
      have hlt := (less_change_zero before after).1 hfalls
      rw [max_eq_left (sub_nonneg.2 hlt.le), sub_finite, neg_finite, neg_sub]
  · next hnot =>
      have hle := not_lt.1 (mt (less_change_zero before after).2 hnot)
      rw [max_eq_right (sub_nonpos.2 hle), zero_eq_finite]

section Step

variable (before after : ℝ) {seen : ℕ}

/-- Up to bar `period` the gains and losses are summed up. -/
theorem strengthStep_sum (hseen : seen ≠ 0) (hearly : seen < period) :
    strengthStep period ⟨seen, finite before, finite gain, finite loss⟩ (finite after) =
      (⟨seen + 1, finite after, finite (gain + max (after - before) 0),
        finite (loss + max (before - after) 0)⟩, nan) := by
  simp only [strengthStep, if_neg hseen, if_pos hearly.le, if_neg hearly.ne, add_rise, add_fall]

/-- At bar `period` the sums become averages. -/
theorem strengthStep_seed (hperiod : 1 ≤ period) :
    strengthStep period ⟨period, finite before, finite gain, finite loss⟩ (finite after) =
      let gain := finite ((gain + max (after - before) 0) / period)
      let loss := finite ((loss + max (before - after) 0) / period)
      (⟨period + 1, finite after, gain, loss⟩, strengthIndex gain loss) := by
  simp only [strengthStep, if_neg (Nat.one_le_iff_ne_zero.1 hperiod), if_pos (Nat.le_refl period),
    if_true, add_rise, add_fall, div_ofNat _ hperiod]

/-- After bar `period` each change replaces one part of the averages. -/
theorem strengthStep_roll (hperiod : 1 ≤ period) (hlate : period < seen) :
    strengthStep period ⟨seen, finite before, finite gain, finite loss⟩ (finite after) =
      let gain := finite ((gain * (period - 1) + max (after - before) 0) / period)
      let loss := finite ((loss * (period - 1) + max (before - after) 0) / period)
      (⟨seen + 1, finite after, gain, loss⟩, strengthIndex gain loss) := by
  simp only [strengthStep, if_neg (Nat.ne_of_gt (Nat.zero_lt_of_lt hlate)),
    if_neg (Nat.not_le.2 hlate), rise_of_change, fall_of_change, ofNat_eq_finite (period - 1),
    mul_finite, add_finite, div_ofNat _ hperiod, Nat.cast_sub hperiod, Nat.cast_one]

end Step

/-- The value of the index at a bar. -/
noncomputable def strengthAt (x : ℕ → ℝ) (period bar : ℕ) : Ideal :=
  if bar < period then nan
  else finite (strengthOf (averageRise x period bar) (averageFall x period bar))

theorem strengthIndex_held (hperiod : 1 ≤ period) (x : ℕ → ℝ) {bar : ℕ} (hbar : period ≤ bar) :
    strengthIndex (finite (heldChange (rise x) period bar))
      (finite (heldChange (fall x) period bar)) = strengthAt x period bar := by
  have hnot : ¬ bar < period := Nat.not_lt.2 hbar
  rw [heldChange, heldChange, if_neg hnot, if_neg hnot, strengthAt, if_neg hnot,
    strengthIndex_finite (wilderAverage_nonneg hperiod (rise_nonneg x) _)
      (wilderAverage_nonneg hperiod (fall_nonneg x) _)]
  rfl

/-- Each step leads from the state of its bar to that of the next one. -/
theorem strengthStep_states (hperiod : 1 ≤ period) (x : ℕ → ℝ) (bar : ℕ) :
    strengthStep period (strengthStates x period bar) (finite (x bar)) =
      (strengthStates x period (bar + 1), strengthAt x period bar) := by
  cases bar with
  | zero =>
      rw [strengthStates, strengthStep, if_pos rfl, strengthAt,
        if_pos (Nat.lt_of_succ_le hperiod), strengthStates, heldChange_zero _ hperiod,
        heldChange_zero _ hperiod, zero_eq_finite]
  | succ bar =>
      rw [strengthStates, strengthStates]
      rcases lt_trichotomy (bar + 1) period with hbar | hbar | hbar
      · rw [strengthStep_sum _ _ bar.succ_ne_zero hbar, strengthAt, if_pos hbar,
          heldChange_of_lt _ hbar, heldChange_of_lt _ hbar]
        rfl
      · rw [← strengthIndex_held hperiod x hbar.ge, heldChange_of_eq _ hbar,
          heldChange_of_eq _ hbar]
        subst hbar
        exact strengthStep_seed _ _ hperiod
      · rw [← strengthIndex_held hperiod x hbar.le, heldChange_of_le _ (Nat.le_of_lt_succ hbar),
          heldChange_of_le _ (Nat.le_of_lt_succ hbar)]
        exact strengthStep_roll _ _ hperiod hbar

theorem relativeStrength_numbers (hperiod : 1 ≤ period) (count : ℕ) (x : ℕ → ℝ) :
    relativeStrength period (numbers count x) = tabulate count (strengthAt x period) :=
  scan_numbers (strengthStates x period) _ (strengthStep_states hperiod x) count

/-! ### The oscillator -/

/-- The index of a series of numbers is Wilder's: undefined up to bar `period`, between 0 and 100
from there on, 100 as long as nothing has fallen, and turned over with its series. -/
structure IsOscillator (xs : Series Ideal) (period : ℕ) : Prop where
  value : ∀ bar < xs.length, period ≤ bar → (relativeStrength period xs)[bar]? = some (finite
    (strengthOf (averageRise (numberAt xs) period bar) (averageFall (numberAt xs) period bar)))
  undefined_iff : ∀ bar < xs.length,
    (relativeStrength period xs)[bar]? = some nan ↔ bar < min period xs.length
  bounded : ∀ r, finite r ∈ relativeStrength period xs → r ∈ Set.Icc 0 100
  full : ∀ bar < xs.length, period ≤ bar →
    (∀ earlier < bar, numberAt xs earlier ≤ numberAt xs (earlier + 1)) →
      (relativeStrength period xs)[bar]? = some (finite 100)
  turned : ∀ bar r, (relativeStrength period xs)[bar]? = some (finite r) →
    averageRise (numberAt xs) period bar ≠ 0 → averageFall (numberAt xs) period bar ≠ 0 →
      (relativeStrength period (xs.map (-·)))[bar]? = some (finite (100 - r))

theorem strengthAt_of_le {bar : ℕ} (hbar : period ≤ bar) : strengthAt x period bar =
    finite (strengthOf (averageRise x period bar) (averageFall x period bar)) :=
  if_neg (Nat.not_lt.2 hbar)

theorem strengthAt_eq_nan_iff {bar : ℕ} : strengthAt x period bar = nan ↔ bar < period := by
  constructor
  · intro hnan
    by_contra hbar
    rw [strengthAt_of_le (Nat.not_lt.1 hbar)] at hnan
    exact nomatch hnan
  · exact fun hbar => if_pos hbar

theorem strengthAt_eq_finite {bar : ℕ} {r : ℝ} (hvalue : strengthAt x period bar = finite r) :
    period ≤ bar ∧ r = strengthOf (averageRise x period bar) (averageFall x period bar) := by
  have hbar : period ≤ bar := by
    by_contra hearly
    rw [strengthAt_eq_nan_iff.2 (Nat.not_le.1 hearly)] at hvalue
    exact nomatch hvalue
  rw [strengthAt_of_le hbar] at hvalue
  exact ⟨hbar, (Ideal.finite.inj hvalue).symm⟩

/-- The strength of a series that is turned over, where it has both risen and fallen. -/
theorem strengthAt_neg (hperiod : 1 ≤ period) {bar : ℕ} {r : ℝ}
    (hvalue : strengthAt x period bar = finite r) (hrise : averageRise x period bar ≠ 0)
    (hfall : averageFall x period bar ≠ 0) :
    strengthAt (fun bar => -x bar) period bar = finite (100 - r) := by
  obtain ⟨hbar, rfl⟩ := strengthAt_eq_finite hvalue
  have hgain : 0 < averageRise x period bar :=
    (wilderAverage_nonneg hperiod (rise_nonneg x) _).lt_of_ne' hrise
  have hloss : 0 < averageFall x period bar :=
    (wilderAverage_nonneg hperiod (fall_nonneg x) _).lt_of_ne' hfall
  rw [strengthAt_of_le hbar, ← strengthOf_swap hgain hloss, averageRise, averageFall, rise_neg,
    fall_neg]
  rfl

theorem averageFall_eq_zero {bar : ℕ} (hbar : period ≤ bar)
    (hrises : ∀ earlier < bar, x earlier ≤ x (earlier + 1)) : averageFall x period bar = 0 := by
  refine wilderAverage_eq_zero _ fun place hfirst hlast => ?_
  obtain ⟨earlier, rfl⟩ := Nat.exists_eq_add_of_le' hfirst
  have hle := hrises earlier (by omega)
  exact max_eq_right (sub_nonpos.2 hle)

/-- The index of a series of numbers is a bounded oscillator. -/
theorem relativeStrength_oscillates {xs : Series Ideal} (hxs : ∀ x ∈ xs, isNaN x = false)
    {period : ℕ} (hperiod : 1 ≤ period) : IsOscillator xs period := by
  have hindex : relativeStrength period xs =
      tabulate xs.length (strengthAt (numberAt xs) period) :=
    (congrArg _ (eq_numbers hxs)).trans (relativeStrength_numbers hperiod _ _)
  have hturned : xs.map (-·) = numbers xs.length fun bar => -numberAt xs bar :=
    (congrArg _ (eq_numbers hxs)).trans (map_tabulate ..)
  refine ⟨fun bar hbar hlate => ?_, fun bar hbar => ?_, fun r hr => ?_,
    fun bar hbar hlate hrises => ?_, fun bar r hr hrise hfall => ?_⟩
  · rw [hindex, getElem?_tabulate _ hbar, strengthAt_of_le hlate]
  · rw [hindex, getElem?_tabulate _ hbar, Option.some_inj, strengthAt_eq_nan_iff, lt_min_iff]
    exact (and_iff_left hbar).symm
  · rw [hindex] at hr
    obtain ⟨bar, _, hvalue⟩ := List.mem_map.1 hr
    obtain ⟨_, rfl⟩ := strengthAt_eq_finite hvalue
    exact strengthOf_mem_Icc (wilderAverage_nonneg hperiod (rise_nonneg _) _)
      (wilderAverage_nonneg hperiod (fall_nonneg _) _)
  · rw [hindex, getElem?_tabulate _ hbar, strengthAt_of_le hlate,
      averageFall_eq_zero hlate hrises, strengthOf_eq, if_pos rfl]
  · have hbar : bar < xs.length := by
      rw [← length_relativeStrength period xs]
      exact (List.getElem?_eq_some_iff.1 hr).1
    rw [hindex, getElem?_tabulate _ hbar, Option.some_inj] at hr
    rw [hturned, relativeStrength_numbers hperiod, getElem?_tabulate _ hbar,
      strengthAt_neg hperiod hr hrise hfall]

/-- A price that rises by three and falls by one. -/
noncomputable def crest : Series Ideal := [finite 6, finite 9, finite 8]

theorem relativeStrength_oscillates_crest : (∀ x ∈ crest, isNaN x = false) ∧ 1 ≤ 2 ∧
    IsOscillator crest 2 ∧ (relativeStrength 2 crest)[2]? = some (finite 75) ∧
      (relativeStrength 2 (crest.map (-·)))[2]? = some (finite 25) := by
  have hcrest : ∀ x ∈ crest, isNaN x = false := by simp [crest]
  have hoscillates := relativeStrength_oscillates hcrest (by decide : 1 ≤ 2)
  have hnumbers : numberAt crest 0 = 6 ∧ numberAt crest 1 = 9 ∧ numberAt crest 2 = 8 :=
    ⟨rfl, rfl, rfl⟩
  have hrise : averageRise (numberAt crest) 2 2 = 3 / 2 := by
    norm_num [averageRise, wilderAverage, Finset.sum_Icc_succ_top, rise, hnumbers]
  have hfall : averageFall (numberAt crest) 2 2 = 1 / 2 := by
    norm_num [averageFall, wilderAverage, Finset.sum_Icc_succ_top, fall, hnumbers]
  have hvalue : (relativeStrength 2 crest)[2]? = some (finite 75) := by
    rw [hoscillates.value 2 (by decide) (by decide), hrise, hfall]
    norm_num [strengthOf_eq]
  have hturned := hoscillates.turned 2 75 hvalue (by norm_num [hrise]) (by norm_num [hfall])
  norm_num at hturned
  exact ⟨hcrest, by decide, hoscillates, hvalue, hturned⟩

end Numbers

end Backtest.Series
