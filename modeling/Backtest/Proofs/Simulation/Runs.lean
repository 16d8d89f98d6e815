import Backtest.Proofs.Simulation.Reason
import Backtest.Proofs.Simulation.Side

/-!
# Runs of events

Signals that set a side, put in a row bar by bar and in their order within a bar, are the events of
a simulation.  An event that sets the side of the one before it changes nothing, and any other event
closes what is open.  So the legs can be read off the row without walking the bars: the maximal runs
of events that set one side give a leg each, from the first event of the run to that of the next
run, and only the runs that set no direction give none (`legs_are_runs`).
-/

namespace Backtest.Simulation

/-! ## Events -/

/-- An active signal: its bar and the side that it sets. -/
structure Event where
  bar : Nat
  side : Option Direction
  deriving DecidableEq

/-- The events of some signals that are active at a bar. -/
def eventsOf (bar : Nat) (kinds : List SignalKind) : List Event :=
  kinds.filterMap fun kind => kind.target?.map (Event.mk bar)

/-- The events of a simulation, ordered by bars and then by signals.  The first bar has none. -/
def events (bars : Nat) (signals : List (SignalKind × Flags)) : List Event :=
  (List.range' 1 (bars - 1)).flatMap fun bar => eventsOf bar (activeAt signals bar)

/-- Events fall into their maximal runs: each run is not empty and sets one side, and the event
behind it sets another one. -/
inductive MaximalRuns : List Event → List (List Event) → Prop
  | nil : MaximalRuns [] []
  | cons {run later : List Event} {rest : List (List Event)} (side : Option Direction)
      (hnonempty : run ≠ []) (hside : ∀ event ∈ run, event.side = side)
      (hnext : ∀ event ∈ later.head?, event.side ≠ side) (hrest : MaximalRuns later rest) :
      MaximalRuns (run ++ later) (run :: rest)

theorem exists_maximalRuns (events : List Event) : ∃ runs, MaximalRuns events runs := by
  induction events with
  | nil => exact ⟨[], .nil⟩
  | cons event events ih =>
      obtain ⟨runs, hruns⟩ := ih
      cases hruns with
      | nil =>
          exact ⟨[[event]], @MaximalRuns.cons [event] [] [] event.side (by simp) (by simp) (by simp)
            .nil⟩
      | cons side hnonempty hside hnext hrest =>
          rename_i run later rest
          by_cases hsame : event.side = side
          · exact ⟨(event :: run) :: rest,
              .cons side (by simp) (List.forall_mem_cons.2 ⟨hsame, hside⟩) hnext hrest⟩
          · have hbehind : ∀ other ∈ (run ++ later).head?, other.side ≠ event.side := by
              intro other hother
              have hmem : other ∈ run := by
                obtain ⟨first, others, rfl⟩ := List.exists_cons_of_ne_nil hnonempty
                simp_all
              rw [hside other hmem]
              exact Ne.symm hsame
            exact ⟨[event] :: run :: rest, @MaximalRuns.cons [event] _ _ event.side (by simp)
              (by simp) hbehind (.cons side hnonempty hside hnext hrest)⟩

/-! ## Legs of runs -/

/-- The bar of the first event of a row of runs, or the last bar if there is none. -/
def onsetOf (last : Nat) (runs : List (List Event)) : Nat :=
  ((runs.head?.bind List.head?).map Event.bar).getD last

/-- The leg from the first event of a run to a bar.  A run that sets no direction has none. -/
def legOfRun? (run : List Event) (stop : Nat) : Option Leg := do
  let first ← run.head?
  let direction ← first.side
  pure ⟨first.bar, stop, direction⟩

/-- The legs of a row of runs.  Each one ends where the next run begins. -/
def legsOfRuns (last : Nat) : List (List Event) → List Leg
  | [] => []
  | run :: rest => (legOfRun? run (onsetOf last rest)).toList ++ legsOfRuns last rest

/-! ## Events one by one -/

/-- The legs that events leave, given the position before them. -/
def legsOfEvents (last : Nat) : Option Position → List Event → List Leg
  | held, [] => forced held last
  | held, event :: rest =>
      if event.side = sideOf held then legsOfEvents last held rest
      else forced held event.bar ++
        legsOfEvents last (event.side.map (⟨·, event.bar⟩)) rest

variable {last bar : Nat} {held : Option Position}

theorem sideOf_map (side : Option Direction) (bar : Nat) :
    sideOf (side.map (⟨·, bar⟩)) = side := by
  simp [sideOf, Function.comp_def]

/-- Signals of a bar act as their events. -/
theorem legsOfEvents_append {kinds : List SignalKind}
    (htargets : ∀ kind ∈ kinds, kind.target?.isSome = true) (later : List Event) :
    legsOfEvents last held (eventsOf bar kinds ++ later) =
      (onSignals false bar held kinds).2 ++
        legsOfEvents last (onSignals false bar held kinds).1 later := by
  induction kinds generalizing held with
  | nil => rfl
  | cons kind rest ih =>
      obtain ⟨side, hside⟩ := Option.isSome_iff_exists.1 (htargets kind List.mem_cons_self)
      have hrest := fun other hother => htargets other (List.mem_cons_of_mem kind hother)
      have hevents : eventsOf bar (kind :: rest) = ⟨bar, side⟩ :: eventsOf bar rest := by
        simp [eventsOf, hside]
      rw [hevents, List.cons_append, legsOfEvents, onSignals, onSignal_of_target bar held hside]
      split
      · simpa using ih hrest
      · simp [ih hrest, forced]

/-- Bars act as their events, one bar after the other. -/
theorem legsFrom_eq_legsOfEvents {signals : List (SignalKind × Flags)}
    (htargets : ∀ signal ∈ signals, signal.1.target?.isSome = true) (count : Nat) :
    legsFrom false bar held ((List.range' bar count).map (activeAt signals)) =
      legsOfEvents (bar + count - 1) held
        ((List.range' bar count).flatMap fun bar => eventsOf bar (activeAt signals bar)) := by
  induction count generalizing bar held with
  | zero => rfl
  | succ count ih =>
      have hlast : bar + 1 + count - 1 = bar + (count + 1) - 1 := by omega
      rw [List.range'_succ, List.map_cons, List.flatMap_cons, legsFrom, onBar, Bool.false_and, ih,
        hlast, legsOfEvents_append (targets_of_activeAt htargets bar)]

/-! ## Runs one by one -/

/-- Events that set the side that the position is on already change nothing. -/
theorem legsOfEvents_of_side {run : List Event} (hside : ∀ event ∈ run, event.side = sideOf held)
    (later : List Event) :
    legsOfEvents last held (run ++ later) = legsOfEvents last held later := by
  induction run with
  | nil => rfl
  | cons event rest ih =>
      rw [List.cons_append, legsOfEvents, if_pos (hside event List.mem_cons_self),
        ih fun other hother => hside other (List.mem_cons_of_mem event hother)]

/-- Events leave the legs of their runs.  A position that is held before them, on another side than
the first run, is closed where that run begins. -/
theorem legsOfEvents_of_runs {events : List Event} {runs : List (List Event)}
    (hruns : MaximalRuns events runs)
    (hheld : held = none ∨ ∀ event ∈ events.head?, event.side ≠ sideOf held) :
    legsOfEvents last held events = forced held (onsetOf last runs) ++ legsOfRuns last runs := by
  induction hruns generalizing held with
  | nil => simp [legsOfEvents, legsOfRuns, onsetOf]
  | @cons run later rest side hnonempty hside hnext hrest ih =>
      obtain ⟨first, others, rfl⟩ := List.exists_cons_of_ne_nil hnonempty
      have hfirst := hside first List.mem_cons_self
      have hothers := fun other hother => hside other (List.mem_cons_of_mem first hother)
      rw [List.cons_append, legsOfEvents, legsOfRuns]
      split
      case isTrue hsame =>
        -- Only a run that sets no direction, before which nothing is held, changes nothing.
        have hnone : held = none := hheld.resolve_right fun hother => hother first rfl hsame
        subst hnone
        have hflat : first.side = none := hsame
        rw [legsOfEvents_of_side (fun other hother => by rw [hothers other hother, ← hfirst, hsame]),
          ih (.inl rfl)]
        simp [forced, legOfRun?, hflat]
      case isFalse =>
        have hsideOf := sideOf_map first.side first.bar
        have hleg : forced (first.side.map (⟨·, first.bar⟩)) (onsetOf last rest) =
            (legOfRun? (first :: others) (onsetOf last rest)).toList := by
          cases hdirection : first.side <;> simp [forced, legOfRun?, hdirection, Position.closeAt]
        rw [legsOfEvents_of_side (fun other hother => by
            rw [hothers other hother, hsideOf, hfirst]),
          ih (.inr (by rwa [hsideOf, hfirst])), hleg]
        simp [onsetOf]

/-! ## Whole simulations -/

/-- The legs of a simulation are those of the maximal runs of its events, if all signals set a
side and openings need no flat start. -/
theorem legs_are_runs (bars : Nat) {signals : List (SignalKind × Flags)}
    (hkinds : ∀ signal ∈ signals, signal.1 ∈ [.openLong, .openShort, .closeAny]) :
    (∃ runs, MaximalRuns (events bars signals) runs) ∧
      ∀ runs, MaximalRuns (events bars signals) runs →
        legs bars signals false = legsOfRuns (bars - 1) runs := by
  have htargets : ∀ signal ∈ signals, signal.1.target?.isSome = true := by
    intro signal hsignal
    have hkind := hkinds signal hsignal
    revert hkind
    cases signal.1 <;> decide
  refine ⟨exists_maximalRuns _, fun runs hruns => ?_⟩
  have hlast : 1 + (bars - 1) - 1 = bars - 1 := by omega
  calc
    legs bars signals false = legsOfEvents (bars - 1) none (events bars signals) := by
      rw [legs, tape_drop_one, legsFrom_eq_legsOfEvents htargets, hlast, events]
    _ = legsOfRuns (bars - 1) runs := legsOfEvents_of_runs hruns (.inl rfl)

/-- Long twice in a row, then short and flat at the second of these bars, and long again at the
end. -/
def crossfire : List (SignalKind × Flags) :=
  [(.openLong, [false, true, true, false, false, true]),
    (.openShort, [false, false, true, false, false, false]),
    (.closeAny, [false, false, true, true, false, false])]

/-- The maximal runs of these signals. -/
def crossfireRuns : List (List Event) :=
  [[⟨1, some .long⟩, ⟨2, some .long⟩], [⟨2, some .short⟩], [⟨2, none⟩, ⟨3, none⟩],
    [⟨5, some .long⟩]]

theorem legs_are_runs_crossfire :
    (∀ signal ∈ crossfire, signal.1 ∈ [.openLong, .openShort, .closeAny]) ∧
      MaximalRuns (events 6 crossfire) crossfireRuns ∧
      legs 6 crossfire false = [⟨1, 2, .long⟩, ⟨2, 2, .short⟩, ⟨5, 5, .long⟩] := by
  have hkinds : ∀ signal ∈ crossfire, signal.1 ∈ [.openLong, .openShort, .closeAny] := by decide
  have hruns : MaximalRuns (events 6 crossfire) crossfireRuns := by
    have hevents : events 6 crossfire = crossfireRuns.flatten := by decide
    rw [hevents]
    exact .cons (some .long) (by decide) (by decide) (by decide) <|
      .cons (some .short) (by decide) (by decide) (by decide) <|
      .cons none (by decide) (by decide) (by decide) <|
      .cons (some .long) (by decide) (by decide) (by decide) .nil
  exact ⟨hkinds, hruns, (legs_are_runs 6 hkinds).2 crossfireRuns hruns⟩

end Backtest.Simulation
