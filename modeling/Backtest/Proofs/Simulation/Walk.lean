import Backtest.Simulation.Position

/-!
# Walking the bars

The simulator as a state machine: `walk` takes a position over a stretch of bars and gives the
position after it and the legs that signals closed on the way.  A whole simulation is a walk over
all bars and the forced close behind it, and a walk over two stretches is one walk after the other.

Every leg is closed at a bar of the stretch, and no earlier than it was opened.  This is what tells
the legs of the first bars from all later ones.
-/

namespace Backtest.Simulation

/-- The position after a stretch of bars and the legs that signals close there; the stretch starts
at the given bar. -/
def walk (fromFlat : Bool) (bar : Nat) (held : Option Position) :
    List (List SignalKind) → Option Position × List Leg
  | [] => (held, [])
  | kinds :: rest =>
      let result := onBar fromFlat bar held kinds
      let others := walk fromFlat (bar + 1) result.1 rest
      (others.1, result.2 ++ others.2)

/-- The leg that a forced close of a position at a bar leaves, if there is a position. -/
def forced (held : Option Position) (bar : Nat) : List Leg := (held.map (·.closeAt bar)).toList

/-- The legs that signals close in a simulation. -/
def signalLegs (bars : Nat) (signals : List (SignalKind × Flags)) (fromFlat : Bool) : List Leg :=
  (walk fromFlat 1 none ((tape bars signals).drop 1)).2

/-- The position that a simulation holds after it has processed a bar. -/
def heldAfter (bars : Nat) (signals : List (SignalKind × Flags)) (fromFlat : Bool) (bar : Nat) :
    Option Position :=
  (walk fromFlat 1 none (((tape bars signals).drop 1).take bar)).1

/-- The first bars of each signal. -/
def truncate (count : Nat) (signals : List (SignalKind × Flags)) : List (SignalKind × Flags) :=
  signals.map fun signal => (signal.1, signal.2.take count)

/-! ## Stretches -/

section Stretches

variable (fromFlat : Bool) (bar : Nat) (held : Option Position)

theorem walk_append (first second : List (List SignalKind)) :
    walk fromFlat bar held (first ++ second) =
      let middle := walk fromFlat bar held first
      let last := walk fromFlat (bar + first.length) middle.1 second
      (last.1, middle.2 ++ last.2) := by
  induction first generalizing bar held with
  | nil => rfl
  | cons kinds rest ih =>
      have hbar : bar + 1 + rest.length = bar + (rest.length + 1) := by omega
      simp only [List.cons_append, walk, ih, hbar, List.length_cons, List.append_assoc]

theorem legsFrom_eq_walk (stretch : List (List SignalKind)) :
    legsFrom fromFlat bar held stretch =
      (walk fromFlat bar held stretch).2 ++
        forced (walk fromFlat bar held stretch).1 (bar + stretch.length - 1) := by
  induction stretch generalizing bar held with
  | nil => rfl
  | cons kinds rest ih =>
      have hbar : bar + 1 + rest.length - 1 = bar + (rest.length + 1) - 1 := by omega
      rw [legsFrom, ih, hbar, List.length_cons, walk, List.append_assoc]

end Stretches

theorem length_tape (bars : Nat) (signals : List (SignalKind × Flags)) :
    (tape bars signals).length = bars := by
  rw [tape, List.length_map, List.length_range]

/-- A simulation is what its signals close and a forced close at the last bar. -/
theorem legs_eq_append (bars : Nat) (signals : List (SignalKind × Flags)) (fromFlat : Bool) :
    legs bars signals fromFlat =
      signalLegs bars signals fromFlat ++
        forced (heldAfter bars signals fromFlat (bars - 1)) (bars - 1) := by
  have hlength : ((tape bars signals).drop 1).length = bars - 1 := by
    rw [List.length_drop, length_tape]
  have hbar : 1 + (bars - 1) - 1 = bars - 1 := by omega
  rw [legs, legsFrom_eq_walk, hlength, hbar, signalLegs, heldAfter,
    List.take_of_length_le (Nat.le_of_eq hlength)]

/-! ## Where legs begin and end -/

/-- A position that was opened before a bar. -/
def OpenedBefore (bar : Nat) (held : Option Position) : Prop :=
  ∀ position, held = some position → position.entry < bar

/-- A leg that is closed in a range of bars, and no earlier than it was opened. -/
structure Leg.ClosedWithin (first last : Nat) (leg : Leg) : Prop where
  ordered : leg.entry ≤ leg.exit
  first_le : first ≤ leg.exit
  lt_last : leg.exit < last

theorem Leg.ClosedWithin.mono {first second last final : Nat} {leg : Leg}
    (hleg : leg.ClosedWithin second last) (hfirst : first ≤ second) (hlast : last ≤ final) :
    leg.ClosedWithin first final :=
  ⟨hleg.ordered, Nat.le_trans hfirst hleg.first_le, Nat.lt_of_lt_of_le hleg.lt_last hlast⟩

theorem openedBefore_none (bar : Nat) : OpenedBefore bar none := by
  intro position hposition
  exact nomatch hposition

theorem OpenedBefore.mono {first second : Nat} {held : Option Position}
    (hheld : OpenedBefore first held) (hle : first ≤ second) : OpenedBefore second held :=
  fun position hposition => Nat.lt_of_lt_of_le (hheld position hposition) hle

theorem closeAt_closedWithin {bar : Nat} {held : Option Position}
    (hheld : OpenedBefore (bar + 1) held) {leg : Leg} (hleg : leg ∈ forced held bar) :
    leg.ClosedWithin bar (bar + 1) := by
  cases held with
  | none => exact nomatch hleg
  | some position =>
      rw [List.mem_singleton.1 hleg]
      exact ⟨Nat.le_of_lt_succ (hheld position rfl), Nat.le_refl _, Nat.lt_succ_self _⟩

variable (settled fromFlat : Bool) {bar : Nat} {held : Option Position}

theorem onSignal_bounds (hheld : OpenedBefore (bar + 1) held) (kind : SignalKind) :
    OpenedBefore (bar + 1) (onSignal settled bar held kind).1 ∧
      ∀ leg, (onSignal settled bar held kind).2 = some leg → leg.ClosedWithin bar (bar + 1) := by
  have hclose : ∀ leg, held.map (·.closeAt bar) = some leg → leg.ClosedWithin bar (bar + 1) := by
    intro leg hleg
    apply closeAt_closedWithin hheld
    rw [forced, hleg]
    exact List.mem_singleton_self leg
  have hkept : ∀ leg : Leg, (none : Option Leg) = some leg → leg.ClosedWithin bar (bar + 1) := by
    intro leg hleg
    exact nomatch hleg
  simp only [onSignal]
  split
  · split
    · exact ⟨hheld, hkept⟩
    · refine ⟨?_, hclose⟩
      intro position hposition
      injection hposition with hposition
      rw [← hposition]
      exact Nat.lt_succ_self bar
  · split
    · split
      · exact ⟨openedBefore_none _, hclose⟩
      · exact ⟨hheld, hkept⟩
    · exact ⟨hheld, hkept⟩

theorem onSignals_bounds (hheld : OpenedBefore (bar + 1) held) (kinds : List SignalKind) :
    OpenedBefore (bar + 1) (onSignals settled bar held kinds).1 ∧
      ∀ leg ∈ (onSignals settled bar held kinds).2, leg.ClosedWithin bar (bar + 1) := by
  induction kinds generalizing held with
  | nil => exact ⟨hheld, fun leg hleg => nomatch hleg⟩
  | cons kind rest ih =>
      obtain ⟨hfirst, hleg⟩ := onSignal_bounds settled hheld kind
      obtain ⟨hlast, hothers⟩ := ih hfirst
      refine ⟨hlast, ?_⟩
      intro leg hmem
      rcases List.mem_append.1 hmem with hmem | hmem
      · exact hleg leg (Option.mem_toList.1 hmem)
      · exact hothers leg hmem

/-- A walk closes legs at its own bars only, and leaves a position that was opened before its
end. -/
theorem walk_bounds (hheld : OpenedBefore bar held) (stretch : List (List SignalKind)) :
    OpenedBefore (bar + stretch.length) (walk fromFlat bar held stretch).1 ∧
      ∀ leg ∈ (walk fromFlat bar held stretch).2,
        leg.ClosedWithin bar (bar + stretch.length) := by
  induction stretch generalizing bar held with
  | nil => exact ⟨hheld, fun leg hleg => nomatch hleg⟩
  | cons kinds rest ih =>
      have hbar : bar + 1 + rest.length = bar + (rest.length + 1) := by omega
      obtain ⟨hnext, hclosed⟩ := onSignals_bounds (fromFlat && held.isSome)
        (hheld.mono (Nat.le_succ bar)) kinds
      obtain ⟨hlast, hothers⟩ := ih hnext
      rw [hbar] at hlast hothers
      refine ⟨hlast, ?_⟩
      intro leg hmem
      rcases List.mem_append.1 hmem with hmem | hmem
      · exact (hclosed leg hmem).mono (Nat.le_refl _) (by rw [List.length_cons]; omega)
      · exact (hothers leg hmem).mono (Nat.le_succ bar) (Nat.le_refl _)

theorem signalLegs_closedWithin {bars : Nat} {signals : List (SignalKind × Flags)} {leg : Leg}
    (hleg : leg ∈ signalLegs bars signals fromFlat) : leg.ClosedWithin 1 bars := by
  have hbounds := (walk_bounds fromFlat (openedBefore_none 1) _).2 leg hleg
  have hfirst := hbounds.first_le
  have hlast := hbounds.lt_last
  rw [List.length_drop, length_tape] at hlast
  exact ⟨hbounds.ordered, hfirst, by omega⟩

theorem forced_closedWithin {bars : Nat} {signals : List (SignalKind × Flags)} {leg : Leg}
    (hleg : leg ∈ forced (heldAfter bars signals fromFlat bar) bar) :
    leg.ClosedWithin bar (bar + 1) := by
  have hheld := (walk_bounds fromFlat (openedBefore_none 1)
    (((tape bars signals).drop 1).take bar)).1
  rw [List.length_take] at hheld
  exact closeAt_closedWithin (hheld.mono (by omega)) hleg

/-- The legs of a simulation are within its bars. -/
theorem legs_bounds {bars : Nat} {signals : List (SignalKind × Flags)} {leg : Leg}
    (hleg : leg ∈ legs bars signals fromFlat) : leg.entry ≤ leg.exit ∧ leg.exit < bars := by
  cases bars with
  | zero => exact absurd hleg List.not_mem_nil
  | succ last =>
      rw [legs_eq_append] at hleg
      rcases List.mem_append.1 hleg with hleg | hleg
      · have hbounds := signalLegs_closedWithin fromFlat hleg
        exact ⟨hbounds.ordered, hbounds.lt_last⟩
      · have hbounds := forced_closedWithin fromFlat hleg
        exact ⟨hbounds.ordered, hbounds.lt_last⟩

/-! ## The first bars -/

theorem activeAt_truncate {count : Nat} (signals : List (SignalKind × Flags))
    (hbar : bar < count) : activeAt (truncate count signals) bar = activeAt signals bar := by
  rw [activeAt, activeAt, truncate, List.filterMap_map]
  congr 1
  funext signal
  rw [Function.comp_apply, List.getElem?_take_of_lt hbar]

theorem tape_truncate {count bars : Nat} (signals : List (SignalKind × Flags))
    (hcount : count ≤ bars) :
    tape count (truncate count signals) = (tape bars signals).take count := by
  rw [tape, tape, ← List.map_take, List.take_range, Nat.min_eq_left hcount]
  apply List.map_congr_left
  intro bar hbar
  exact activeAt_truncate signals (List.mem_range.1 hbar)

/-- Over the first bars, signals close the legs that they close there in the whole simulation, and
the position that the whole simulation holds at the last of these bars is closed there. -/
theorem legs_truncate {count bars : Nat} (signals : List (SignalKind × Flags)) (fromFlat : Bool)
    (hpositive : 1 ≤ count) (hcount : count ≤ bars) :
    legs count (truncate count signals) fromFlat =
      (signalLegs bars signals fromFlat).filter (fun leg => leg.exit < count) ++
        forced (heldAfter bars signals fromFlat (count - 1)) (count - 1) := by
  -- The whole tape falls into the bars up to `count - 1` and the later ones.
  let early := ((tape bars signals).drop 1).take (count - 1)
  let late := ((tape bars signals).drop 1).drop (count - 1)
  have hearly : early.length = count - 1 := by
    rw [List.length_take, List.length_drop, length_tape]
    omega
  have htape : (tape count (truncate count signals)).drop 1 = early := by
    rw [tape_truncate signals hcount, List.drop_take]
  have hsplit : (tape bars signals).drop 1 = early ++ late := (List.take_append_drop ..).symm
  have hmiddle := walk_bounds fromFlat (openedBefore_none 1) early
  have hlate := walk_bounds fromFlat hmiddle.1 late
  have hend : 1 + early.length = count := by omega
  have hkept : (walk fromFlat 1 none early).2.filter (fun leg => leg.exit < count) =
      (walk fromFlat 1 none early).2 := by
    apply List.filter_eq_self.2
    intro leg hleg
    exact decide_eq_true (hend ▸ (hmiddle.2 leg hleg).lt_last)
  have hdropped : (walk fromFlat (1 + early.length) (walk fromFlat 1 none early).1 late).2.filter
      (fun leg => leg.exit < count) = [] := by
    apply List.filter_eq_nil_iff.2
    intro leg hleg hlt
    have hle := (hlate.2 leg hleg).first_le
    have hlt := of_decide_eq_true hlt
    omega
  rw [legs, htape, legsFrom_eq_walk, signalLegs, hsplit, walk_append, List.filter_append, hkept,
    hdropped, List.append_nil, hearly, heldAfter, Nat.add_sub_cancel_left]

end Backtest.Simulation
