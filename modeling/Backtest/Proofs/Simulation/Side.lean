import Backtest.Proofs.Simulation.Walk

/-!
# The side that a run is on

After each bar a run is long, short or flat.  A signal that opens a direction, or that closes
whatever is open, sets the side no matter what it was before; so the last of such signals at a bar
decides, and a bar without signals leaves the side as it was (`sideAfter_succ`).
-/

namespace Backtest

/-- The side that a signal sets, `none` being flat.  A signal that closes one direction only sets no
side. -/
def SignalKind.target? : SignalKind → Option (Option Direction)
  | .openLong => some (some .long)
  | .openShort => some (some .short)
  | .closeAny => some none
  | .closeLong | .closeShort => none

namespace Simulation

variable {bar bars : Nat} {signals : List (SignalKind × Flags)}

/-- The direction of the position that is held, if any is. -/
def sideOf (held : Option Position) : Option Direction := held.map (·.direction)

/-- The side that a simulation is on after it has processed a bar. -/
def sideAfter (bars : Nat) (signals : List (SignalKind × Flags)) (fromFlat : Bool) (bar : Nat) :
    Option Direction :=
  sideOf (heldAfter bars signals fromFlat bar)

/-! ## One signal and one bar -/

/-- A signal that sets a side leaves what is on that side already, and closes anything else. -/
theorem onSignal_of_target (bar : Nat) (held : Option Position) {kind : SignalKind}
    {side : Option Direction} (hside : kind.target? = some side) :
    onSignal false bar held kind =
      if side = sideOf held then (held, none)
      else (side.map (⟨·, bar⟩), held.map (·.closeAt bar)) := by
  cases kind with
  | openLong | openShort =>
      obtain ⟨rfl⟩ := hside
      rcases held with _ | ⟨_ | _, entry⟩ <;> rfl
  | closeAny =>
      obtain ⟨rfl⟩ := hside
      cases held <;> rfl
  | closeLong | closeShort => cases hside

theorem sideOf_onSignal (bar : Nat) (held : Option Position) {kind : SignalKind}
    {side : Option Direction} (hside : kind.target? = some side) :
    sideOf (onSignal false bar held kind).1 = side := by
  rw [onSignal_of_target bar held hside]
  split
  · next hsame => exact hsame.symm
  · cases side <;> rfl

/-- The last of the signals decides; without one the side stays. -/
theorem sideOf_onSignals (bar : Nat) (held : Option Position) {kinds : List SignalKind}
    (htargets : ∀ kind ∈ kinds, kind.target?.isSome = true) :
    sideOf (onSignals false bar held kinds).1 =
      (kinds.filterMap SignalKind.target?).getLast?.getD (sideOf held) := by
  induction kinds generalizing held with
  | nil => rfl
  | cons kind rest ih =>
      obtain ⟨side, hside⟩ := Option.isSome_iff_exists.1 (htargets kind List.mem_cons_self)
      have hrest := ih (onSignal false bar held kind).1 fun other hother =>
        htargets other (List.mem_cons_of_mem _ hother)
      rw [onSignals, hrest, sideOf_onSignal bar held hside, List.filterMap_cons_some hside,
        List.getLast?_cons, Option.getD_some]

/-! ## Bar after bar -/

/-- Signals that all set a side do so at each bar. -/
theorem targets_of_activeAt (htargets : ∀ signal ∈ signals, signal.1.target?.isSome = true)
    (bar : Nat) : ∀ kind ∈ activeAt signals bar, kind.target?.isSome = true := by
  intro kind hkind
  obtain ⟨signal, hsignal, hopen⟩ := List.mem_filterMap.1 hkind
  obtain ⟨_, ⟨⟩⟩ := Option.ite_none_right_eq_some.1 hopen
  exact htargets signal hsignal

/-- The position after a bar comes from the one after the bar before. -/
theorem heldAfter_succ (fromFlat : Bool) (hbar : bar + 1 < bars) :
    heldAfter bars signals fromFlat (bar + 1) =
      (onBar fromFlat (bar + 1) (heldAfter bars signals fromFlat bar)
        (activeAt signals (bar + 1))).1 := by
  have hlength : (((tape bars signals).drop 1).take bar).length = bar := by
    rw [List.length_take, List.length_drop, length_tape]
    omega
  have hnext : ((tape bars signals).drop 1)[bar]? = some (activeAt signals (bar + 1)) := by
    rw [List.getElem?_drop, Nat.add_comm, tape, List.getElem?_map, List.getElem?_range hbar]
    rfl
  rw [heldAfter, List.take_add_one, hnext, walk_append, hlength, Nat.add_comm 1 bar]
  rfl

theorem sideAfter_zero (bars : Nat) (signals : List (SignalKind × Flags)) (fromFlat : Bool) :
    sideAfter bars signals fromFlat 0 = none := rfl

/-- Signals that set a side: the last one that is active at a bar decides, and without one the side
stays. -/
theorem sideAfter_succ (htargets : ∀ signal ∈ signals, signal.1.target?.isSome = true)
    (hbar : bar + 1 < bars) :
    sideAfter bars signals false (bar + 1) =
      ((activeAt signals (bar + 1)).filterMap SignalKind.target?).getLast?.getD
        (sideAfter bars signals false bar) := by
  rw [sideAfter, heldAfter_succ false hbar, onBar, Bool.false_and, sideOf_onSignals _ _
    (targets_of_activeAt htargets _), sideAfter]

end Simulation

end Backtest
