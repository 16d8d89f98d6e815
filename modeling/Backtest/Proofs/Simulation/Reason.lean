import Backtest.Proofs.Simulation.Walk

/-!
# The reasons of a leg

Every leg of a simulation has its reasons.  A signal opens its direction at its first bar; a signal
ends it at its last bar, unless that is the last bar of all; and no signal that would have ended it
is active in between.  Legs follow one another without overlap, and there are never more of them
than room for one per signal and bar, and one for the forced close.

`Acts` lists what a single signal can do.  Each invariant is read off that list for one signal, and
carried from there over the signals of a bar and over the bars of a run.
-/

namespace Backtest

namespace SignalKind

/-- A signal that ends a position: it closes the direction, or it opens the opposite one. -/
def Ends (kind : SignalKind) (direction : Direction) : Prop :=
  kind.closes direction = true ∨ kind.opens? = some direction.opposite

/-- A signal that leaves a position from an earlier bar as it is.  With `fromFlat`, an opening does
so too. -/
def Spares (fromFlat : Bool) (kind : SignalKind) (direction : Direction) : Prop :=
  kind.closes direction = false ∧ (fromFlat = false → kind.opens? ≠ some direction.opposite)

end SignalKind

namespace Simulation

/-! ## One signal -/

/-- What a signal can do at a bar: the position before it, the position after it, and the leg that
it closes. -/
inductive Acts (settled : Bool) (bar : Nat) (kind : SignalKind) :
    Option Position → Option Position → Option Leg → Prop where
  | idles : Acts settled bar kind none none none
  | keeps (position : Position) (hcloses : kind.closes position.direction = false)
      (hopens : settled = false → kind.opens? ≠ some position.direction.opposite) :
      Acts settled bar kind (some position) (some position) none
  | opens (direction : Direction) (hopens : kind.opens? = some direction) :
      Acts settled bar kind none (some ⟨direction, bar⟩) none
  | reverses (position : Position) (hopens : kind.opens? = some position.direction.opposite) :
      Acts settled bar kind (some position) (some ⟨position.direction.opposite, bar⟩)
        (some (position.closeAt bar))
  | closes (position : Position) (hcloses : kind.closes position.direction = true) :
      Acts settled bar kind (some position) none (some (position.closeAt bar))

theorem eq_opposite_of_ne {first second : Direction} (hne : first ≠ second) :
    second = first.opposite := by
  cases first with
  | long =>
      cases second with
      | long => exact absurd rfl hne
      | short => rfl
  | short =>
      cases second with
      | long => rfl
      | short => exact absurd rfl hne

theorem ne_opposite (direction : Direction) : direction ≠ direction.opposite := by
  cases direction <;> decide

theorem closes_of_opens? {kind : SignalKind} {direction : Direction}
    (hopens : kind.opens? = some direction) (held : Direction) : kind.closes held = false := by
  cases kind with
  | openLong | openShort => rfl
  | closeLong | closeShort | closeAny => exact nomatch hopens

theorem onSignal_acts (settled : Bool) (bar : Nat) (held : Option Position) (kind : SignalKind) :
    Acts settled bar kind held (onSignal settled bar held kind).1
      (onSignal settled bar held kind).2 := by
  unfold onSignal
  cases hopens : kind.opens? with
  | none =>
      cases held with
      | none => exact .idles
      | some position =>
          cases hcloses : kind.closes position.direction with
          | true => simpa [hcloses] using Acts.closes position hcloses
          | false => simpa [hcloses] using Acts.keeps position hcloses (by simp [hopens])
  | some direction =>
      cases held with
      | none =>
          cases settled with
          | true => exact .idles
          | false => exact .opens direction hopens
      | some position =>
          have hcloses := closes_of_opens? hopens position.direction
          by_cases hsame : position.direction = direction
          · have hopposite : kind.opens? ≠ some position.direction.opposite := by
              rw [hopens, ← hsame]
              simpa using ne_opposite position.direction
            have hkeeps : Acts settled bar kind (some position) (some position) none :=
              .keeps position hcloses fun _ => hopposite
            simpa [hsame] using hkeeps
          · have hother := eq_opposite_of_ne hsame
            rw [hother] at hopens
            cases settled with
            | true =>
                have hkeeps : Acts true bar kind (some position) (some position) none :=
                  .keeps position hcloses Bool.noConfusion
                simpa using hkeeps
            | false =>
                have hreverses : Acts false bar kind (some position) _ _ :=
                  .reverses position hopens
                simpa [hsame, ← hother] using hreverses

/-! ## Positions and legs with their reasons -/

section Reasons

variable (signals : List (SignalKind × Flags)) (fromFlat : Bool)

/-- A position that is held before a bar for good reasons: a signal opened it, and no signal since
then would have ended it. -/
structure Position.Standing (bar : Nat) (position : Position) : Prop where
  positive : 1 ≤ position.entry
  opened : ∃ kind ∈ activeAt signals position.entry, kind.opens? = some position.direction
  kept : ∀ between, position.entry < between → between < bar →
    ∀ kind ∈ activeAt signals between, kind.Spares fromFlat position.direction

/-- A leg of a run over some bars, with its reasons. -/
structure Leg.Justified (bars : Nat) (leg : Leg) : Prop where
  positive : 1 ≤ leg.entry
  ordered : leg.entry ≤ leg.exit
  lt_bars : leg.exit < bars
  opened : ∃ kind ∈ activeAt signals leg.entry, kind.opens? = some leg.direction
  ended : leg.exit = bars - 1 ∨ ∃ kind ∈ activeAt signals leg.exit, kind.Ends leg.direction
  kept : ∀ between, leg.entry < between → between < leg.exit →
    ∀ kind ∈ activeAt signals between, kind.Spares fromFlat leg.direction

variable {signals} {fromFlat} {settled : Bool} {bar bars : Nat} {held : Option Position}

/-- A signal closes legs with reasons, and leaves a position with reasons. -/
theorem onSignal_reasons {kind : SignalKind} (hsettled : fromFlat = false → settled = false)
    (hpositive : 1 ≤ bar) (hlast : bar < bars) (hactive : kind ∈ activeAt signals bar)
    (hheld : ∀ position ∈ held, position.entry ≤ bar ∧ position.Standing signals fromFlat bar) :
    (∀ position ∈ (onSignal settled bar held kind).1,
        (position.entry ≤ bar ∧ position.Standing signals fromFlat bar) ∧
          (position.entry < bar → position ∈ held ∧ kind.Spares fromFlat position.direction)) ∧
      ∀ leg ∈ (onSignal settled bar held kind).2, leg.Justified signals fromFlat bars := by
  have hopened (direction : Direction) (hopens : kind.opens? = some direction) :
      Position.Standing signals fromFlat bar ⟨direction, bar⟩ :=
    ⟨hpositive, ⟨kind, hactive, hopens⟩, fun between hafter hbefore => by
      change bar < between at hafter
      omega⟩
  have hclosed (position : Position) (hposition : position ∈ held)
      (hends : kind.Ends position.direction) :
      (position.closeAt bar).Justified signals fromFlat bars :=
    have ⟨hentry, hstanding⟩ := hheld position hposition
    ⟨hstanding.positive, hentry, hlast, hstanding.opened, .inr ⟨kind, hactive, hends⟩,
      hstanding.kept⟩
  have hacts := onSignal_acts settled bar held kind
  generalize onSignal settled bar held kind = result at hacts ⊢
  obtain ⟨next, leg⟩ := result
  dsimp only at hacts ⊢
  cases hacts with
  | idles => exact ⟨nofun, nofun⟩
  | keeps position hcloses hopens =>
      refine ⟨?_, nofun⟩
      intro other hother
      refine ⟨hheld other hother, fun _ => ⟨hother, ?_⟩⟩
      injection hother with hother
      exact hother ▸ ⟨hcloses, fun hfromFlat => hopens (hsettled hfromFlat)⟩
  | opens direction hopens =>
      refine ⟨?_, nofun⟩
      rintro _ ⟨⟩
      exact ⟨⟨Nat.le_refl bar, hopened direction hopens⟩, fun hlt => absurd hlt (Nat.lt_irrefl bar)⟩
  | reverses position hopens =>
      constructor
      · rintro _ ⟨⟩
        exact ⟨⟨Nat.le_refl bar, hopened _ hopens⟩, fun hlt => absurd hlt (Nat.lt_irrefl bar)⟩
      · rintro _ ⟨⟩
        exact hclosed position rfl (.inr hopens)
  | closes position hcloses =>
      refine ⟨nofun, ?_⟩
      rintro _ ⟨⟩
      exact hclosed position rfl (.inl hcloses)

/-- What a position that is still open after some signals of a bar tells about them: if it is from
an earlier bar, all of them spared it. -/
theorem onSignals_reasons {kinds : List SignalKind}
    (hsettled : fromFlat = false → settled = false) (hpositive : 1 ≤ bar) (hlast : bar < bars)
    (hactive : ∀ kind ∈ kinds, kind ∈ activeAt signals bar)
    (hheld : ∀ position ∈ held, position.entry ≤ bar ∧ position.Standing signals fromFlat bar) :
    (∀ position ∈ (onSignals settled bar held kinds).1,
        (position.entry ≤ bar ∧ position.Standing signals fromFlat bar) ∧
          (position.entry < bar → position ∈ held ∧
            ∀ kind ∈ kinds, kind.Spares fromFlat position.direction)) ∧
      ∀ leg ∈ (onSignals settled bar held kinds).2, leg.Justified signals fromFlat bars := by
  induction kinds generalizing held with
  | nil =>
      refine ⟨?_, nofun⟩
      intro position hposition
      exact ⟨hheld position hposition, fun _ => ⟨hposition, nofun⟩⟩
  | cons kind rest ih =>
      obtain ⟨hnext, hleg⟩ :=
        onSignal_reasons hsettled hpositive hlast (hactive kind List.mem_cons_self) hheld
      have hothers := fun other hother => hactive other (List.mem_cons_of_mem _ hother)
      obtain ⟨hfinal, hlegs⟩ := ih hothers fun position hposition => (hnext position hposition).1
      constructor
      · intro position hposition
        obtain ⟨hstanding, hearlier⟩ := hfinal position hposition
        refine ⟨hstanding, fun hlt => ?_⟩
        obtain ⟨hmiddle, hrest⟩ := hearlier hlt
        obtain ⟨hsame, hkind⟩ := (hnext position hmiddle).2 hlt
        exact ⟨hsame, List.forall_mem_cons.2 ⟨hkind, hrest⟩⟩
      · intro leg hmem
        rcases List.mem_append.1 hmem with hmem | hmem
        · exact hleg leg (Option.mem_toList.1 hmem)
        · exact hlegs leg hmem

/-- The legs from a bar on have their reasons, given a position that has. -/
theorem legsFrom_reasons {count : Nat} (hpositive : 1 ≤ bar) (hbars : bar + count = bars)
    (hheld : ∀ position ∈ held, position.entry < bar ∧ position.Standing signals fromFlat bar) :
    ∀ leg ∈ legsFrom fromFlat bar held ((List.range' bar count).map (activeAt signals)),
      leg.Justified signals fromFlat bars := by
  induction count generalizing bar held with
  | zero =>
      intro leg hleg
      obtain ⟨position, hposition, rfl⟩ := Option.map_eq_some_iff.1 (Option.mem_toList.1 hleg)
      obtain ⟨hentry, hstanding⟩ := hheld position hposition
      exact ⟨hstanding.positive, Nat.le_sub_one_of_lt hentry, by change bar - 1 < bars; omega,
        hstanding.opened, .inl (by change bar - 1 = bars - 1; omega),
        fun between hafter hbefore => hstanding.kept between hafter (by
          change between < bar - 1 at hbefore
          omega)⟩
  | succ count ih =>
      rw [List.range'_succ, List.map_cons, legsFrom]
      have hsettled : fromFlat = false → (fromFlat && held.isSome) = false := by
        intro hfromFlat
        rw [hfromFlat, Bool.false_and]
      have hlast : bar < bars := by omega
      obtain ⟨hnext, hlegs⟩ := onSignals_reasons hsettled hpositive hlast (fun kind hkind => hkind)
        fun position hposition => ⟨Nat.le_of_lt (hheld position hposition).1,
          (hheld position hposition).2⟩
      intro leg hmem
      rcases List.mem_append.1 hmem with hmem | hmem
      · exact hlegs leg hmem
      · refine ih (by omega) (by omega) ?_ leg hmem
        -- What is held after the bar has stood at this bar too.
        intro position hposition
        obtain ⟨⟨hentry, hstanding⟩, hearlier⟩ := hnext position hposition
        refine ⟨Nat.lt_succ_of_le hentry, hstanding.positive, hstanding.opened, ?_⟩
        intro between hafter hbefore
        by_cases hbetween : between = bar
        · rw [hbetween]
          exact (hearlier (hbetween ▸ hafter)).2
        · exact hstanding.kept between hafter (by omega)

end Reasons

/-! ## Legs in a row -/

section Rows

/-- The bar at which the next leg begins at the earliest: that of the open position, if there is
one. -/
def onset (held : Option Position) (bar : Nat) : Nat := (held.map (·.entry)).getD bar

/-- A leg begins no earlier than another one ends. -/
def Leg.Follows (first second : Leg) : Prop := first.exit ≤ second.entry

variable (fromFlat settled : Bool) {bar : Nat} {held : Option Position}

theorem onset_le (hheld : OpenedBefore (bar + 1) held) : onset held bar ≤ bar := by
  cases held with
  | none => exact Nat.le_refl bar
  | some position => exact Nat.le_of_lt_succ (hheld position rfl)

theorem onset_le_onset {next : Nat} (hle : bar ≤ next) : onset held bar ≤ onset held next := by
  cases held with
  | none => exact hle
  | some position => exact Nat.le_refl position.entry

/-- A leg that a signal closes began with the open position, and the next one begins at its end. -/
theorem onSignal_onset (hheld : OpenedBefore (bar + 1) held) (kind : SignalKind) :
    onset held bar ≤ onset (onSignal settled bar held kind).1 bar ∧
      ∀ leg ∈ (onSignal settled bar held kind).2, leg.entry = onset held bar ∧ leg.exit = bar ∧
        onset (onSignal settled bar held kind).1 bar = bar := by
  have hle := onset_le hheld
  have hacts := onSignal_acts settled bar held kind
  generalize onSignal settled bar held kind = result at hacts ⊢
  obtain ⟨next, leg⟩ := result
  dsimp only at hacts ⊢
  cases hacts with
  | idles => exact ⟨Nat.le_refl _, nofun⟩
  | keeps => exact ⟨Nat.le_refl _, nofun⟩
  | opens => exact ⟨Nat.le_refl _, nofun⟩
  | reverses =>
      refine ⟨hle, ?_⟩
      rintro _ ⟨⟩
      exact ⟨rfl, rfl, rfl⟩
  | closes =>
      refine ⟨hle, ?_⟩
      rintro _ ⟨⟩
      exact ⟨rfl, rfl, rfl⟩

/-- The legs of one bar follow one another, and they end at that bar. -/
theorem onSignals_row (hheld : OpenedBefore (bar + 1) held) (kinds : List SignalKind) :
    onset held bar ≤ onset (onSignals settled bar held kinds).1 bar ∧
      (∀ leg ∈ (onSignals settled bar held kinds).2, onset held bar ≤ leg.entry ∧ leg.exit = bar ∧
        bar ≤ onset (onSignals settled bar held kinds).1 bar) ∧
      (onSignals settled bar held kinds).2.Pairwise Leg.Follows := by
  induction kinds generalizing held with
  | nil => exact ⟨Nat.le_refl _, nofun, List.Pairwise.nil⟩
  | cons kind rest ih =>
      obtain ⟨hstep, hleg⟩ := onSignal_onset settled hheld kind
      obtain ⟨hothers, hlegs, hrow⟩ := ih (onSignal_bounds settled hheld kind).1
      refine ⟨Nat.le_trans hstep hothers, ?_, ?_⟩
      · intro leg hmem
        rcases List.mem_append.1 hmem with hmem | hmem
        · obtain ⟨hentry, hexit, hnext⟩ := hleg leg (Option.mem_toList.1 hmem)
          exact ⟨Nat.le_of_eq hentry.symm, hexit, Nat.le_trans (Nat.le_of_eq hnext.symm) hothers⟩
        · obtain ⟨hentry, hrest⟩ := hlegs leg hmem
          exact ⟨Nat.le_trans hstep hentry, hrest⟩
      · refine List.pairwise_append.2 ⟨?_, hrow, ?_⟩
        · cases (onSignal settled bar held kind).2 with
          | none => exact List.Pairwise.nil
          | some leg => exact List.pairwise_singleton _ leg
        · intro first hfirst second hsecond
          obtain ⟨_, hexit, hnext⟩ := hleg first (Option.mem_toList.1 hfirst)
          change first.exit ≤ second.entry
          rw [hexit, ← hnext]
          exact (hlegs second hsecond).1

/-- The legs from a bar on follow one another; none begins before the open position. -/
theorem legsFrom_row (hheld : OpenedBefore bar held) (stretch : List (List SignalKind)) :
    (∀ leg ∈ legsFrom fromFlat bar held stretch, onset held bar ≤ leg.entry) ∧
      (legsFrom fromFlat bar held stretch).Pairwise Leg.Follows := by
  induction stretch generalizing bar held with
  | nil =>
      cases held with
      | none => exact ⟨nofun, List.Pairwise.nil⟩
      | some position =>
          refine ⟨?_, List.pairwise_singleton _ _⟩
          intro leg hleg
          rw [List.mem_singleton.1 hleg]
          exact Nat.le_refl position.entry
  | cons kinds rest ih =>
      have hnow := hheld.mono (Nat.le_succ bar)
      obtain ⟨hstep, hlegs, hrow⟩ :=
        onSignals_row (fromFlat && held.isSome) hnow kinds
      obtain ⟨hothers, hrest⟩ := ih (onSignals_bounds (fromFlat && held.isSome) hnow kinds).1
      have hlater : ∀ leg ∈ legsFrom fromFlat (bar + 1) (onBar fromFlat bar held kinds).1 rest,
          onset (onBar fromFlat bar held kinds).1 bar ≤ leg.entry :=
        fun leg hleg => Nat.le_trans (onset_le_onset (Nat.le_succ bar)) (hothers leg hleg)
      rw [legsFrom]
      constructor
      · intro leg hmem
        rcases List.mem_append.1 hmem with hmem | hmem
        · exact (hlegs leg hmem).1
        · exact Nat.le_trans hstep (hlater leg hmem)
      · refine List.pairwise_append.2 ⟨hrow, hrest, ?_⟩
        intro first hfirst second hsecond
        obtain ⟨_, hexit, hnext⟩ := hlegs first hfirst
        change first.exit ≤ second.entry
        rw [hexit]
        exact Nat.le_trans hnext (hlater second hsecond)

end Rows

/-! ## The number of legs -/

section Room

variable (fromFlat settled : Bool)

/-- Each signal closes one leg at most. -/
theorem length_onSignals_le (bar : Nat) (held : Option Position) (kinds : List SignalKind) :
    (onSignals settled bar held kinds).2.length ≤ kinds.length := by
  induction kinds generalizing held with
  | nil => exact Nat.le_refl 0
  | cons kind rest ih =>
      have hrest := ih (onSignal settled bar held kind).1
      have hfirst : (onSignal settled bar held kind).2.toList.length ≤ 1 := by
        cases (onSignal settled bar held kind).2 <;> simp
      rw [onSignals, List.length_append, List.length_cons]
      omega

theorem length_legsFrom_le (bar : Nat) (held : Option Position) {most : Nat}
    {stretch : List (List SignalKind)} (hstretch : ∀ kinds ∈ stretch, kinds.length ≤ most) :
    (legsFrom fromFlat bar held stretch).length ≤ stretch.length * most + 1 := by
  induction stretch generalizing bar held with
  | nil =>
      rw [List.length_nil, Nat.zero_mul]
      cases held <;> simp [legsFrom]
  | cons kinds rest ih =>
      have hkinds := hstretch kinds List.mem_cons_self
      have hfirst := length_onSignals_le (fromFlat && held.isSome) bar held kinds
      have hrest := ih (bar + 1) (onBar fromFlat bar held kinds).1 fun other hother =>
        hstretch other (List.mem_cons_of_mem _ hother)
      have hroom : (rest.length + 1) * most = rest.length * most + most := Nat.succ_mul _ _
      rw [legsFrom, List.length_append, List.length_cons, hroom, onBar]
      rw [onBar] at hrest
      omega

theorem length_activeAt_le (signals : List (SignalKind × Flags)) (bar : Nat) :
    (activeAt signals bar).length ≤ signals.length :=
  List.length_filterMap_le _ _

end Room

/-! ## Whole simulations -/

theorem tape_drop_one (bars : Nat) (signals : List (SignalKind × Flags)) :
    (tape bars signals).drop 1 = (List.range' 1 (bars - 1)).map (activeAt signals) := by
  rw [tape, ← List.map_drop, List.range_eq_range', List.drop_range']

/-- The number of legs that there is room for: one for each signal at each bar, where no signals
count as one, and one for the forced close. -/
def room (bars : Nat) (signals : List (SignalKind × Flags)) : Nat :=
  bars * max signals.length 1 + 1

theorem legs_justified (bars : Nat) (signals : List (SignalKind × Flags)) (fromFlat : Bool) :
    ∀ leg ∈ legs bars signals fromFlat, leg.Justified signals fromFlat bars := by
  rw [legs, tape_drop_one]
  cases bars with
  | zero => exact fun leg hleg => absurd hleg List.not_mem_nil
  | succ last =>
      refine legsFrom_reasons (Nat.le_refl 1) (Nat.add_comm 1 last) ?_
      exact fun position hposition => absurd hposition (Option.not_mem_none position)

theorem legs_follow (bars : Nat) (signals : List (SignalKind × Flags)) (fromFlat : Bool) :
    (legs bars signals fromFlat).Pairwise Leg.Follows :=
  (legsFrom_row fromFlat (openedBefore_none 1) _).2

/-- The legs of a simulation end one after the other. -/
theorem legs_exits_rise (bars : Nat) (signals : List (SignalKind × Flags)) (fromFlat : Bool) :
    (legs bars signals fromFlat).Pairwise fun first second => first.exit ≤ second.exit := by
  refine (legs_follow bars signals fromFlat).imp_of_mem fun {first second} _ hsecond hfollows => ?_
  exact Nat.le_trans hfollows (legs_justified bars signals fromFlat second hsecond).ordered

/-- The legs of a simulation have their reasons, follow one another, and have room. -/
theorem legs_have_reasons (bars : Nat) (signals : List (SignalKind × Flags)) (fromFlat : Bool) :
    (∀ leg ∈ legs bars signals fromFlat, leg.Justified signals fromFlat bars) ∧
      (legs bars signals fromFlat).Pairwise Leg.Follows ∧
      (legs bars signals fromFlat).length ≤ room bars signals := by
  refine ⟨legs_justified bars signals fromFlat, legs_follow bars signals fromFlat, ?_⟩
  have hlength : (legs bars signals fromFlat).length ≤ (bars - 1) * signals.length + 1 := by
    have hmost : ∀ kinds ∈ (tape bars signals).drop 1, kinds.length ≤ signals.length := by
      rw [tape_drop_one]
      exact List.forall_mem_map.2 fun bar _ => length_activeAt_le signals bar
    have hbound := length_legsFrom_le fromFlat 1 none hmost
    rwa [List.length_drop, length_tape] at hbound
  have hmono : (bars - 1) * signals.length ≤ bars * max signals.length 1 :=
    Nat.mul_le_mul (Nat.sub_le bars 1) (Nat.le_max_left _ _)
  exact Nat.le_trans hlength (Nat.succ_le_succ hmono)

end Simulation

end Backtest
