import Backtest.Proofs.Simulation.Arrangement
import Mathlib.Order.Nat

/-!
# Round trips

Rules that say at which bars a position may be entered, in which direction, and at which bars a
position of a direction is left.  A round trip begins at the first bar that admits an entry and ends
at the first later one that is left, or at the last bar; the next entry is looked for only behind
that end (`RoundTrips`).

Signals whose bars act by such rules (`FollowsRules`) have exactly the legs of these round trips
(`roundTrips_iff`), and each of them ends before the next one begins.
-/

namespace Backtest.Simulation

variable {bars start bar : Nat}

/-- The first bar of a table, from a given one on, at which something holds. -/
structure FirstFrom (bars : Nat) (holds : Nat → Prop) (start bar : Nat) : Prop where
  start_le : start ≤ bar
  lt_bars : bar < bars
  here : holds bar
  earlier : ∀ before, start ≤ before → before < bar → ¬ holds before

/-- The legs of a rule from a bar on, if no position is held there. -/
inductive RoundTrips (bars : Nat) (enters leaves : Direction → Nat → Prop) :
    Nat → List Leg → Prop where
  | idle {start : Nat}
      (hnever : ∀ bar, start ≤ bar → bar < bars → ¬ ∃ direction, enters direction bar) :
      RoundTrips bars enters leaves start []
  | kept {start entry : Nat} {direction : Direction}
      (hentry : FirstFrom bars (fun bar => ∃ direction, enters direction bar) start entry)
      (hdirection : enters direction entry)
      (hnever : ∀ bar, entry + 1 ≤ bar → bar < bars → ¬ leaves direction bar) :
      RoundTrips bars enters leaves start [⟨entry, bars - 1, direction⟩]
  | left {start entry exit : Nat} {direction : Direction} {rest : List Leg}
      (hentry : FirstFrom bars (fun bar => ∃ direction, enters direction bar) start entry)
      (hdirection : enters direction entry)
      (hexit : FirstFrom bars (leaves direction) (entry + 1) exit)
      (hrest : RoundTrips bars enters leaves (exit + 1) rest) :
      RoundTrips bars enters leaves start (⟨entry, exit, direction⟩ :: rest)

/-- What signals do at each bar if they follow a rule: they open where the rule enters, if no
position is held, and close where it leaves the direction of the position that is held. -/
structure FollowsRules (bars : Nat) (signals : List (SignalKind × Flags))
    (enters leaves : Direction → Nat → Prop) : Prop where
  flat : ∀ bar < bars, (¬ ∃ direction, enters direction bar) →
    onBar true bar none (activeAt signals bar) = (none, [])
  opens : ∀ bar < bars, ∀ direction, enters direction bar →
    onBar true bar none (activeAt signals bar) = (some ⟨direction, bar⟩, [])
  holds : ∀ bar < bars, ∀ position : Position, ¬ leaves position.direction bar →
    onBar true bar (some position) (activeAt signals bar) = (some position, [])
  closes : ∀ bar < bars, ∀ position : Position, leaves position.direction bar →
    onBar true bar (some position) (activeAt signals bar) = (none, [position.closeAt bar])

/-! ## Signals of a rule -/

section Signals

open Script

/-- The signals that open and then close both directions at given bars. -/
def ruleSignals (opens closes : Direction → Flags) : List (SignalKind × Flags) :=
  [(.openLong, opens .long), (.openShort, opens .short), (.closeLong, closes .long),
    (.closeShort, closes .short)]

variable {opens closes : Direction → Flags}

/-- While a position is held, only what closes its direction acts. -/
theorem onBar_ruleSignals_some (position : Position) :
    onBar true bar (some position) (activeAt (ruleSignals opens closes) bar) =
      if truthAt bar (closes position.direction) then (none, [position.closeAt bar])
      else (some position, []) := by
  obtain ⟨direction, entry⟩ := position
  simp only [ruleSignals, activeAt_cons]
  cases truthAt bar (opens .long) <;> cases truthAt bar (opens .short)
  all_goals
    cases direction <;> cases truthAt bar (closes .long) <;> cases truthAt bar (closes .short) <;>
      rfl

theorem onBar_ruleSignals_none (hopens : ∀ direction, truthAt bar (opens direction) = false) :
    onBar true bar none (activeAt (ruleSignals opens closes) bar) = (none, []) := by
  simp only [ruleSignals, activeAt_cons, hopens]
  cases truthAt bar (closes .long) <;> cases truthAt bar (closes .short) <;> rfl

/-- A bar that opens one direction, and does not close it again, leaves a position behind. -/
theorem onBar_ruleSignals_opens {direction : Direction}
    (hopens : truthAt bar (opens direction) = true)
    (hother : truthAt bar (opens direction.opposite) = false)
    (hcloses : truthAt bar (closes direction) = false) :
    onBar true bar none (activeAt (ruleSignals opens closes) bar) =
      (some ⟨direction, bar⟩, []) := by
  cases direction with
  | long =>
      rw [Direction.opposite] at hother
      simp only [ruleSignals, activeAt_cons, hopens, hother, hcloses]
      cases truthAt bar (closes .short) <;> rfl
  | short =>
      rw [Direction.opposite] at hother
      simp only [ruleSignals, activeAt_cons, hopens, hother, hcloses]
      cases truthAt bar (closes .long) <;> rfl

/-- Such signals follow the rule of their bars, if no bar admits entries in both directions or lets
a position that it admits be left. -/
theorem followsRules_ruleSignals {enters leaves : Direction → Nat → Prop}
    (henters : ∀ bar < bars, ∀ direction,
      truthAt bar (opens direction) = true ↔ enters direction bar)
    (hleaves : ∀ bar < bars, ∀ direction,
      truthAt bar (closes direction) = true ↔ leaves direction bar)
    (hone : ∀ bar < bars, ∀ direction, enters direction bar → ¬ enters direction.opposite bar)
    (hstays : ∀ bar < bars, ∀ direction, enters direction bar → ¬ leaves direction bar) :
    FollowsRules bars (ruleSignals opens closes) enters leaves := by
  have hopens {bar : Nat} (hbar : bar < bars) {direction : Direction}
      (hnot : ¬ enters direction bar) : truthAt bar (opens direction) = false :=
    Bool.eq_false_iff.2 (mt (henters bar hbar direction).1 hnot)
  have hcloses {bar : Nat} (hbar : bar < bars) {direction : Direction}
      (hnot : ¬ leaves direction bar) : truthAt bar (closes direction) = false :=
    Bool.eq_false_iff.2 (mt (hleaves bar hbar direction).1 hnot)
  constructor
  · intro bar hbar hnone
    exact onBar_ruleSignals_none fun direction => hopens hbar fun henter => hnone ⟨_, henter⟩
  · intro bar hbar direction henter
    exact onBar_ruleSignals_opens ((henters bar hbar direction).2 henter)
      (hopens hbar (hone bar hbar direction henter))
      (hcloses hbar (hstays bar hbar direction henter))
  · intro bar hbar position hkeep
    rw [onBar_ruleSignals_some, hcloses hbar hkeep]
    rfl
  · intro bar hbar position hleave
    rw [onBar_ruleSignals_some, (hleaves bar hbar _).2 hleave]
    rfl

end Signals

/-! ## First bars -/

theorem firstFrom_or_never (bars : Nat) (holds : Nat → Prop) (start : Nat) :
    (∃ bar, FirstFrom bars holds start bar) ∨ ∀ bar, start ≤ bar → bar < bars → ¬ holds bar := by
  classical
  by_cases hexists : ∃ bar, start ≤ bar ∧ bar < bars ∧ holds bar
  · obtain ⟨hstart, hlast, hholds⟩ := Nat.find_spec hexists
    refine .inl ⟨Nat.find hexists, hstart, hlast, hholds, fun before hle hlt hbefore => ?_⟩
    exact Nat.find_min hexists hlt ⟨hle, by omega, hbefore⟩
  · exact .inr fun bar hstart hlast hholds => hexists ⟨bar, hstart, hlast, hholds⟩

section Run

variable {signals : List (SignalKind × Flags)} {enters leaves : Direction → Nat → Prop}

/-- The legs of the bars from a given one on. -/
def legsAfter (bars : Nat) (signals : List (SignalKind × Flags)) (start : Nat)
    (held : Option Position) : List Leg :=
  legsFrom true start held ((List.range' start (bars - start)).map (activeAt signals))

theorem legsAfter_of_lt (hstart : start < bars) (held : Option Position) :
    legsAfter bars signals start held =
      (onBar true start held (activeAt signals start)).2 ++
        legsAfter bars signals (start + 1) (onBar true start held (activeAt signals start)).1 := by
  have hcount : bars - start = bars - (start + 1) + 1 := by omega
  rw [legsAfter, hcount, List.range'_succ, List.map_cons, legsFrom, legsAfter]

theorem legsAfter_bars (held : Option Position) :
    legsAfter bars signals bars held = forced held (bars - 1) := by
  rw [legsAfter, Nat.sub_self]
  rfl

/-- Bars that leave a position as it is close nothing. -/
theorem legsAfter_skip {held : Option Position} {last : Nat} (hstart : start ≤ last)
    (hlast : last ≤ bars)
    (hskip : ∀ bar, start ≤ bar → bar < last →
      onBar true bar held (activeAt signals bar) = (held, [])) :
    legsAfter bars signals start held = legsAfter bars signals last held := by
  obtain ⟨count, rfl⟩ := Nat.exists_eq_add_of_le hstart
  clear hstart
  induction count with
  | zero => rfl
  | succ count ih =>
      rw [ih (by omega) fun bar hfirst hbefore => hskip bar hfirst (by omega),
        legsAfter_of_lt (by omega), hskip (start + count) (by omega) (by omega)]
      rfl

/-! ## The legs of a rule -/

section Rules

variable (hrules : FollowsRules bars signals enters leaves)
include hrules

/-- From flat, the next position is entered at the first bar that admits it. -/
theorem legsAfter_entry {entry : Nat} {direction : Direction}
    (hentry : FirstFrom bars (fun bar => ∃ direction, enters direction bar) start entry)
    (hdirection : enters direction entry) :
    legsAfter bars signals start none =
      legsAfter bars signals (entry + 1) (some ⟨direction, entry⟩) := by
  rw [legsAfter_skip hentry.start_le (Nat.le_of_lt hentry.lt_bars) fun bar hfirst hbefore =>
      hrules.flat bar (Nat.lt_trans hbefore hentry.lt_bars) (hentry.earlier bar hfirst hbefore),
    legsAfter_of_lt hentry.lt_bars, hrules.opens entry hentry.lt_bars direction hdirection]
  rfl

/-- The round trips from a bar on are the legs that the signals leave there. -/
theorem legsAfter_of_roundTrips {legs : List Leg} (hstart : start ≤ bars)
    (htrips : RoundTrips bars enters leaves start legs) :
    legsAfter bars signals start none = legs := by
  induction htrips with
  | @idle start hnever =>
      rw [legsAfter_skip hstart (Nat.le_refl bars) fun bar hfirst hlast =>
        hrules.flat bar hlast (hnever bar hfirst hlast), legsAfter_bars]
      rfl
  | @kept start entry direction hentry hdirection hnever =>
      rw [legsAfter_entry hrules hentry hdirection,
        legsAfter_skip hentry.lt_bars (Nat.le_refl bars) fun bar hfirst hlast =>
          hrules.holds bar hlast _ (hnever bar hfirst hlast), legsAfter_bars]
      rfl
  | @left start entry exit direction rest hentry hdirection hexit _ ih =>
      rw [legsAfter_entry hrules hentry hdirection,
        legsAfter_skip hexit.start_le (Nat.le_of_lt hexit.lt_bars) fun bar hfirst hbefore =>
          hrules.holds bar (Nat.lt_trans hbefore hexit.lt_bars) _
            (hexit.earlier bar hfirst hbefore),
        legsAfter_of_lt hexit.lt_bars, hrules.closes exit hexit.lt_bars _ hexit.here,
        ih hexit.lt_bars]
      rfl

end Rules

theorem exists_roundTrips (bars : Nat) (enters leaves : Direction → Nat → Prop) (start : Nat) :
    ∃ legs, RoundTrips bars enters leaves start legs := by
  induction hcount : bars - start using Nat.strong_induction_on generalizing start with
  | _ count ih =>
      rcases firstFrom_or_never bars (fun bar => ∃ direction, enters direction bar) start with
        ⟨entry, hentry⟩ | hnever
      · obtain ⟨direction, hdirection⟩ := hentry.here
        have hstart := hentry.start_le
        rcases firstFrom_or_never bars (leaves direction) (entry + 1) with ⟨exit, hexit⟩ | hnever
        · have hentered := hexit.start_le
          have hlast := hexit.lt_bars
          obtain ⟨rest, hrest⟩ := ih (bars - (exit + 1)) (by omega) (exit + 1) rfl
          exact ⟨_, .left hentry hdirection hexit hrest⟩
        · exact ⟨_, .kept hentry hdirection hnever⟩
      · exact ⟨[], .idle hnever⟩

/-- Signals that follow a rule have exactly the legs of its round trips. -/
theorem roundTrips_iff (hrules : FollowsRules bars signals enters leaves)
    (hfirst : ¬ ∃ direction, enters direction 0) {others : List Leg} :
    RoundTrips bars enters leaves 0 others ↔ legs bars signals true = others := by
  have hlegs : legs bars signals true = legsAfter bars signals 0 none := by
    rw [legs, tape_drop_one]
    cases bars with
    | zero => rfl
    | succ last =>
        exact (legsAfter_skip (Nat.zero_le 1) (Nat.succ_pos last) fun bar _ hbar => by
          obtain rfl := Nat.lt_one_iff.1 hbar
          exact hrules.flat 0 (Nat.succ_pos last) hfirst).symm
  have hsound {others : List Leg} (htrips : RoundTrips bars enters leaves 0 others) :
      legs bars signals true = others :=
    hlegs.trans (legsAfter_of_roundTrips hrules (Nat.zero_le bars) htrips)
  constructor
  · exact hsound
  · rintro rfl
    obtain ⟨others, htrips⟩ := exists_roundTrips bars enters leaves 0
    exact hsound htrips ▸ htrips

end Run

/-- Each round trip ends before the next one begins. -/
theorem RoundTrips.pairwise {enters leaves : Direction → Nat → Prop} {legs : List Leg}
    (htrips : RoundTrips bars enters leaves start legs) :
    (∀ leg ∈ legs, start ≤ leg.entry) ∧
      legs.Pairwise fun first second => first.exit < second.entry := by
  induction htrips with
  | idle => exact ⟨nofun, .nil⟩
  | kept hentry => exact ⟨List.forall_mem_singleton.2 hentry.start_le, List.pairwise_singleton ..⟩
  | left hentry _ hexit _ ih =>
      have hentered := hentry.start_le
      have hleft := hexit.start_le
      exact ⟨List.forall_mem_cons.2 ⟨hentered, fun leg hleg =>
          Nat.le_trans (by omega) (ih.1 leg hleg)⟩,
        List.pairwise_cons.2 ⟨fun leg hleg => ih.1 leg hleg, ih.2⟩⟩

end Backtest.Simulation
