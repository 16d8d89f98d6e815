import Backtest.Proofs.Script.Interpretation
import Backtest.Proofs.Simulation.Reason
import Backtest.Proofs.Simulation.Truncation

/-!
# The arrangement of signals

A simulation sees of its signals only what is active at each bar, and in which order.  So signals
that are never active together can be put in any order, and a signal can be split in two adjacent
ones of its kind: where both parts are active, the second one finds done what it asks for
(`simulation_ignores_arrangement`).
-/

namespace Backtest.Simulation

open Script

variable {α : Type} [Arith α]
variable {bars bar : Nat} {signals others : List (SignalKind × Flags)}

/-! ## Active signals -/

theorem activeAt_cons (signal : SignalKind × Flags) (rest : List (SignalKind × Flags))
    (bar : Nat) : activeAt (signal :: rest) bar =
      if truthAt bar signal.2 then signal.1 :: activeAt rest bar else activeAt rest bar := by
  rw [activeAt, List.filterMap_cons, truthAt]
  cases signal.2[bar]?.getD false <;> rfl

theorem activeAt_append (first second : List (SignalKind × Flags)) (bar : Nat) :
    activeAt (first ++ second) bar = activeAt first bar ++ activeAt second bar :=
  List.filterMap_append

/-- Signals whose active ones act alike at each bar have the same legs. -/
theorem legs_eq_of_onBar {fromFlat : Bool}
    (halike : ∀ bar, 1 ≤ bar → bar < bars → ∀ held,
      onBar fromFlat bar held (activeAt signals bar) =
        onBar fromFlat bar held (activeAt others bar)) :
    legs bars signals fromFlat = legs bars others fromFlat := by
  have hfrom (count first : Nat) (held : Option Position) (hfirst : 1 ≤ first)
      (hlast : first + count ≤ max bars 1) :
      legsFrom fromFlat first held ((List.range' first count).map (activeAt signals)) =
        legsFrom fromFlat first held ((List.range' first count).map (activeAt others)) := by
    induction count generalizing first held with
    | zero => rfl
    | succ count ih =>
        rw [List.range'_succ, List.map_cons, List.map_cons, legsFrom, legsFrom,
          halike first hfirst (by omega) held, ih (first + 1) _ (by omega) (by omega)]
  rw [legs, legs, tape_drop_one, tape_drop_one]
  exact hfrom (bars - 1) 1 none (Nat.le_refl 1) (by omega)

/-! ## A signal twice in a row -/

section Twice

variable (settled : Bool) (bar : Nat) (held : Option Position)

/-- A signal that has just acted does nothing when it acts again. -/
theorem onSignal_twice (kind : SignalKind) :
    onSignal settled bar (onSignal settled bar held kind).1 kind =
      ((onSignal settled bar held kind).1, none) := by
  cases settled <;> rcases held with _ | ⟨_ | _, entry⟩ <;> cases kind <;> rfl

theorem onSignals_doubled (before : List SignalKind) (kind : SignalKind)
    (after : List SignalKind) :
    onSignals settled bar held (before ++ kind :: kind :: after) =
      onSignals settled bar held (before ++ kind :: after) := by
  induction before generalizing held with
  | nil =>
      simp only [List.nil_append, onSignals]
      rw [onSignal_twice]
      rfl
  | cons first rest ih => simp only [List.cons_append, onSignals, ih]

end Twice

/-! ## Rearranged signals -/

/-- One signal is split in two adjacent ones of its kind; together they are active where it was. -/
inductive Splits (bars : Nat) : List (SignalKind × Flags) → List (SignalKind × Flags) → Prop
  | intro (before after : List (SignalKind × Flags)) (kind : SignalKind)
      {mask first second : Flags}
      (hmask : ∀ bar < bars, truthAt bar mask = (truthAt bar first || truthAt bar second)) :
      Splits bars (before ++ (kind, mask) :: after)
        (before ++ (kind, first) :: (kind, second) :: after)

theorem onBar_of_splits (hsplits : Splits bars signals others) (hbar : bar < bars)
    (fromFlat : Bool) (held : Option Position) :
    onBar fromFlat bar held (activeAt signals bar) =
      onBar fromFlat bar held (activeAt others bar) := by
  obtain @⟨before, after, kind, mask, first, second, hmask⟩ := hsplits
  simp only [activeAt_append, activeAt_cons, hmask bar hbar, onBar]
  cases truthAt bar first with
  | false => rfl
  | true =>
      cases truthAt bar second with
      | false => rfl
      | true => exact (onSignals_doubled _ bar held _ kind _).symm

/-- Where at most one signal is active, the order of the signals says nothing. -/
theorem activeAt_of_perm (hperm : signals.Perm others)
    (halone : (activeAt signals bar).length ≤ 1) : activeAt signals bar = activeAt others bar := by
  have hactive : (activeAt signals bar).Perm (activeAt others bar) := hperm.filterMap _
  match hfew : activeAt signals bar, halone with
  | [], _ => exact (hfew ▸ hactive).nil_eq
  | [kind], _ => exact (List.perm_singleton.1 (hfew ▸ hactive).symm).symm

/-- Signals of which no two are active at one bar can be put in any order, and any signal can be
split in two: the simulation stays the same. -/
theorem simulation_ignores_arrangement {prices : Prices α} (signals : List (SignalKind × Flags))
    (asset : Option (Asset α)) (fromFlat : Bool)
    (htimestamps : prices.timestamp.length = prices.length)
    (hcloses : ∀ x ∈ prices.close, Arith.same x Arith.zero = false) :
    ∃ trades equity, simulate prices signals asset fromFlat = .ok (trades, equity) ∧
      ((∀ bar, 1 ≤ bar → bar < prices.length → (activeAt signals bar).length ≤ 1) →
        ∀ others, signals.Perm others →
          simulate prices others asset fromFlat = .ok (trades, equity)) ∧
      ∀ others, Splits prices.length signals others →
        simulate prices others asset fromFlat = .ok (trades, equity) := by
  obtain ⟨trades, htrades⟩ := exists_tradesOf asset htimestamps hcloses fun leg =>
    legs_bounds fromFlat
  have hsame (others : List (SignalKind × Flags))
      (hlegs : legs prices.length signals fromFlat = legs prices.length others fromFlat) :
      simulate prices others asset fromFlat =
        .ok (trades, equityCurve prices.length trades) :=
    simulate_eq_ok.2 ⟨hlegs ▸ htrades, rfl⟩
  refine ⟨trades, equityCurve prices.length trades, hsame signals rfl, ?_, ?_⟩
  · intro halone others hperm
    apply hsame
    apply legs_eq_of_onBar
    intro bar hfirst hlast held
    rw [activeAt_of_perm hperm (halone bar hfirst hlast)]
  · intro others hsplits
    apply hsame
    apply legs_eq_of_onBar
    intro bar _ hlast held
    exact onBar_of_splits hsplits hlast fromFlat held

/-- Long at the second bar, short at the two bars behind it. -/
def turns : List (SignalKind × Flags) :=
  [(.openLong, [false, true, false, false]), (.openShort, [false, false, true, true])]

/-- The same signals, the second one split in two that are both active at the last bar. -/
def splitTurns : List (SignalKind × Flags) :=
  [(.openLong, [false, true, false, false]), (.openShort, [false, false, true, true]),
    (.openShort, [false, false, false, true])]

theorem simulation_ignores_arrangement_turns :
    (∀ x ∈ risingPrices.close, Arith.same x Arith.zero = false) ∧
      (∀ bar, 1 ≤ bar → bar < 4 → (activeAt turns bar).length ≤ 1) ∧
      turns.Perm turns.reverse ∧ Splits 4 turns splitTurns ∧
      legs 4 turns false = [⟨1, 2, .long⟩, ⟨2, 3, .short⟩] ∧
      ∃ trades equity, simulate risingPrices turns none false = .ok (trades, equity) ∧
        simulate risingPrices turns.reverse none false = .ok (trades, equity) ∧
        simulate risingPrices splitTurns none false = .ok (trades, equity) := by
  have hcloses : ∀ x ∈ risingPrices.close, Arith.same x Arith.zero = false := by decide +kernel
  have halone : ∀ bar < 4, (activeAt turns bar).length ≤ 1 := by decide
  have hperm : turns.Perm turns.reverse := (List.reverse_perm turns).symm
  have hsplits : Splits 4 turns splitTurns :=
    .intro [(.openLong, [false, true, false, false])] [] .openShort (by decide)
  obtain ⟨trades, equity, hturns, hordered, hsplit⟩ :=
    simulation_ignores_arrangement turns none false rfl hcloses
  exact ⟨hcloses, fun bar _ hbar => halone bar hbar, hperm, hsplits, by decide, trades, equity,
    hturns, hordered (fun bar _ hbar => halone bar hbar) _ hperm, hsplit _ hsplits⟩

end Backtest.Simulation
