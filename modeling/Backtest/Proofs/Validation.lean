import Backtest.Decimal.Double
import Backtest.Proofs.Prices

/-!
# Which bars are accepted

Bars are accepted if there is one, if each timestamp follows the one before it, and if all prices
are finite; a table of accepted bars has their fields as its columns.  Otherwise the fault is one of
invalid input, and it names the first bar whose timestamp does not follow, if there is one.

Timestamps are compared by their difference, which wraps around at 64 bits.  `Follows` says what
this comes to.  Between timestamps that are less than `2 ^ 63` milliseconds apart it is the order of
the integers; beyond that it is the opposite (`far_timestamps_misjudged`).
-/

namespace Backtest.Prices

/-! ## Differences that wrap around -/

/-- Integers fit in 64 bits from `-wordBound` on, and below `wordBound`. -/
def wordBound : Int := Nat.pow 2 63

/-- The difference of two timestamps is positive, in 64 bits. -/
def Follows (earlier later : Int) : Prop :=
  (earlier < later ∧ later - earlier < wordBound) ∨ later - earlier < -wordBound

instance (earlier later : Int) : Decidable (Follows earlier later) :=
  inferInstanceAs (Decidable (_ ∨ _))

section Words

variable {earlier later : Int}

theorem fitsWord_iff {n : Int} : fitsWord n = true ↔ -wordBound ≤ n ∧ n < wordBound := by
  rw [fitsWord, Bool.and_eq_true, decide_eq_true_iff, decide_eq_true_iff]
  rfl

theorem follows_iff (hearlier : fitsWord earlier = true) (hlater : fitsWord later = true) :
    Follows earlier later ↔ 0 < wordDifference later earlier := by
  rw [fitsWord_iff] at hearlier hlater
  have hwrap : wordDifference later earlier = (later - earlier).bmod 18446744073709551616 := rfl
  have hbound : wordBound = 9223372036854775808 := rfl
  rw [hwrap, Int.bmod, Follows]
  split <;> omega

/-- Between timestamps that are close enough the order is that of the integers. -/
theorem lt_iff_follows (hgap : fitsWord (later - earlier) = true) :
    earlier < later ↔ Follows earlier later := by
  rw [fitsWord_iff] at hgap
  rw [Follows]
  omega

end Words

/-! ## The first break -/

/-- The first bar whose timestamp is not related to the one before it. -/
structure IsFirstBreak (R : Int → Int → Prop) (timestamps : List Int) (bar : Nat) : Prop where
  breaks : ∃ earlier later, timestamps[bar - 1]? = some earlier ∧ timestamps[bar]? = some later ∧
    ¬ R earlier later
  later : 0 < bar
  before : (timestamps.take bar).IsChain R

/-- A relation that says of neighbours in a list what their difference says. -/
def AgreesOn (R : Int → Int → Prop) (timestamps : List Int) : Prop :=
  timestamps.IsChain fun earlier later => R earlier later ↔ 0 < wordDifference later earlier

section Breaks

variable {R : Int → Int → Prop} {timestamps : List Int}

/-- The search for a disorder either finds the first break or goes through a list without one. -/
theorem firstDisorder_cases (hagrees : AgreesOn R timestamps) (start : Nat) :
    (firstDisorder start timestamps = none ∧ timestamps.IsChain R) ∨
      ∃ bar, firstDisorder start timestamps = some (start + bar) ∧
        IsFirstBreak R timestamps (bar + 1) := by
  induction timestamps generalizing start with
  | nil => exact .inl ⟨rfl, .nil⟩
  | cons earlier rest ih =>
      cases rest with
      | nil => exact .inl ⟨rfl, .singleton earlier⟩
      | cons later rest =>
          obtain ⟨hpair, hrest⟩ := List.isChain_cons_cons.1 hagrees
          rw [firstDisorder]
          by_cases hdown : wordDifference later earlier ≤ 0
          · rw [if_pos hdown]
            have hbreaks : ¬ R earlier later := fun hR => absurd (hpair.1 hR) (Int.not_lt.2 hdown)
            exact .inr ⟨0, rfl, ⟨earlier, later, rfl, rfl, hbreaks⟩, Nat.one_pos,
              .singleton earlier⟩
          · rw [if_neg hdown]
            have hR : R earlier later := hpair.2 (Int.not_le.1 hdown)
            rcases ih hrest (start + 1) with ⟨hnone, hchain⟩ | ⟨bar, hsome, hbreak⟩
            · exact .inl ⟨hnone, List.isChain_cons_cons.2 ⟨hR, hchain⟩⟩
            · refine .inr ⟨bar + 1, ?_, hbreak.breaks, Nat.succ_pos _, ?_⟩
              · rw [hsome, Nat.add_assoc, Nat.add_comm 1]
              · exact List.isChain_cons_cons.2 ⟨hR, hbreak.before⟩

/-- A list with a break is not related throughout. -/
theorem IsFirstBreak.not_isChain {bar : Nat} (hbreak : IsFirstBreak R timestamps bar) :
    ¬ timestamps.IsChain R := by
  intro hchain
  obtain ⟨earlier, later, hearlier, hlater, hbreaks⟩ := hbreak.breaks
  obtain ⟨bar, rfl⟩ := Nat.exists_eq_add_one.2 hbreak.later
  obtain ⟨hbar, rfl⟩ := List.getElem?_eq_some_iff.1 hlater
  obtain ⟨_, rfl⟩ := List.getElem?_eq_some_iff.1 hearlier
  exact hbreaks (List.isChain_iff_getElem.1 hchain bar hbar)

end Breaks

/-! ## Bars -/

variable {α : Type}

/-- The fields of some bars, column by column. -/
def columns (bars : List (Bar α)) : Prices α :=
  ⟨bars.map (·.timestamp), bars.map (·.opening), bars.map (·.high), bars.map (·.low),
    bars.map (·.close), bars.map (·.volume)⟩

variable [Arith α]

/-- The four prices of a bar are finite. -/
structure FinitePrices (bar : Bar α) : Prop where
  opening : Arith.isFinite bar.opening = true
  high : Arith.isFinite bar.high = true
  low : Arith.isFinite bar.low = true
  close : Arith.isFinite bar.close = true

/-- There is a bar, each timestamp is related to the one before it, and all prices are finite. -/
structure Sound (R : Int → Int → Prop) (bars : List (Bar α)) : Prop where
  nonempty : bars ≠ []
  rising : (bars.map (·.timestamp)).IsChain R
  finite : ∀ bar ∈ bars, FinitePrices bar

/-- Sound bars are accepted as they are, and all others are refused as invalid input, with the first
break of the timestamps if they have one. -/
structure Validates (R : Int → Int → Prop) (bars : List (Bar α)) : Prop where
  accepted : ∀ prices, ofValidBars bars = .ok prices ↔ Sound R bars ∧ prices = columns bars
  refused : ¬ Sound R bars → ∃ fault, ofValidBars bars = .error fault ∧ fault.kind = .invalid
  disorder : ¬ (bars.map (·.timestamp)).IsChain R →
    ∃ bar, IsFirstBreak R (bars.map (·.timestamp)) bar ∧
      ofValidBars bars = .error (.timestampOrder bar)

section Bars

variable {R : Int → Int → Prop} {bars : List (Bar α)}

theorem firstUndefined_eq_none_iff :
    (columns bars).firstUndefined = none ↔ ∀ bar ∈ bars, FinitePrices bar := by
  have hcolumn (name : String) (field : Bar α → α) :
      ((bars.map field).findIdx? fun x => !Arith.isFinite x).map (name, ·) = none ↔
        ∀ bar ∈ bars, Arith.isFinite (field bar) = true := by
    rw [Option.map_eq_none_iff, List.findIdx?_eq_none_iff, List.forall_mem_map]
    exact forall₂_congr fun bar _ => iff_of_eq (Bool.not_eq_false' _)
  rw [firstUndefined, List.findSome?_eq_none_iff]
  simp only [List.forall_mem_cons, columns, hcolumn]
  constructor
  · rintro ⟨hopening, hhigh, hlow, hclose, _⟩ bar hbar
    exact ⟨hopening bar hbar, hhigh bar hbar, hlow bar hbar, hclose bar hbar⟩
  · intro hall
    exact ⟨fun bar hbar => (hall bar hbar).opening, fun bar hbar => (hall bar hbar).high,
      fun bar hbar => (hall bar hbar).low, fun bar hbar => (hall bar hbar).close,
      List.forall_mem_nil _⟩

theorem ofValidBars_eq_validate (hwords : ∀ bar ∈ bars, fitsWord bar.timestamp = true) :
    ofValidBars bars = (columns bars).validate := by
  rw [ofValidBars, ofBars, if_pos (List.all_eq_true.2 hwords)]
  rfl

theorem Validates.of_error {fault : Fault} (hrefused : ofValidBars bars = .error fault)
    (hinvalid : fault.kind = .invalid) (hunsound : ¬ Sound R bars)
    (hdisorder : ¬ (bars.map (·.timestamp)).IsChain R →
      ∃ bar, IsFirstBreak R (bars.map (·.timestamp)) bar ∧ fault = .timestampOrder bar) :
    Validates R bars where
  accepted prices := by
    rw [hrefused]
    exact ⟨(fun h => by cases h), fun h => absurd h.1 hunsound⟩
  refused _ := ⟨fault, hrefused, hinvalid⟩
  disorder hbroken := by
    obtain ⟨bar, hbreak, rfl⟩ := hdisorder hbroken
    exact ⟨bar, hbreak, hrefused⟩

/-- Bars are judged by any relation that says of their timestamps what the differences say. -/
theorem validates_of_agreesOn (hwords : ∀ bar ∈ bars, fitsWord bar.timestamp = true)
    (hagrees : AgreesOn R (bars.map (·.timestamp))) : Validates R bars := by
  have hread : ofValidBars bars = (columns bars).validate := ofValidBars_eq_validate hwords
  have hlength : (columns bars).length = 0 ↔ bars = [] := by
    rw [length, columns, List.length_map, List.length_eq_zero_iff]
  rw [validate] at hread
  rcases Classical.em (bars = []) with hnil | hne
  · rw [if_pos (hlength.2 hnil)] at hread
    refine .of_error hread rfl (fun hsound => hsound.nonempty hnil) fun hbroken => ?_
    rw [hnil] at hbroken
    exact absurd .nil hbroken
  · rw [if_neg (mt hlength.1 hne), show (columns bars).timestamp = bars.map (·.timestamp) from rfl]
      at hread
    rcases firstDisorder_cases hagrees 1 with ⟨hnone, hchain⟩ | ⟨bar, hsome, hbreak⟩
    · rw [hnone] at hread
      dsimp only at hread
      cases hfinite : (columns bars).firstUndefined with
      | none =>
          rw [hfinite] at hread
          have hsound : Sound R bars := ⟨hne, hchain, firstUndefined_eq_none_iff.1 hfinite⟩
          refine ⟨fun prices => ?_, fun hunsound => absurd hsound hunsound,
            fun hbroken => absurd hchain hbroken⟩
          rw [hread]
          exact ⟨fun h => ⟨hsound, (Except.ok.inj h).symm⟩, fun h => congrArg _ h.2.symm⟩
      | some flaw =>
          rw [hfinite] at hread
          refine .of_error hread rfl (fun hsound => ?_) fun hbroken => absurd hchain hbroken
          rw [firstUndefined_eq_none_iff.2 hsound.finite] at hfinite
          cases hfinite
    · rw [hsome, Nat.add_comm] at hread
      exact .of_error hread rfl (fun hsound => hbreak.not_isChain hsound.rising)
        fun _ => ⟨_, hbreak, rfl⟩

/-- Bars are accepted by the order of their timestamps in 64 bits, which is the order of the
integers if neighbours are close enough. -/
theorem bars_accepted_exactly (hwords : ∀ bar ∈ bars, fitsWord bar.timestamp = true) :
    Validates Follows bars ∧
      ((bars.map (·.timestamp)).IsChain (fun earlier later => fitsWord (later - earlier) = true) →
        Validates (· < ·) bars) := by
  have hall : ∀ timestamp ∈ bars.map (·.timestamp), fitsWord timestamp = true :=
    List.forall_mem_map.2 hwords
  have hfollows : AgreesOn Follows (bars.map (·.timestamp)) := by
    apply List.isChain_iff_getElem.2
    intro bar hbar
    exact follows_iff (hall _ (List.getElem_mem _)) (hall _ (List.getElem_mem _))
  refine ⟨validates_of_agreesOn hwords hfollows, fun hgaps => ?_⟩
  apply validates_of_agreesOn hwords
  apply List.isChain_iff_getElem.2
  intro bar hbar
  exact (lt_iff_follows (List.isChain_iff_getElem.1 hgaps bar hbar)).trans
    (List.isChain_iff_getElem.1 hfollows bar hbar)

end Bars

/-! ## Instances -/

/-- Bars at given moments with all prices at one. -/
def barsAt (timestamps : List Int) : List (Bar Float) :=
  timestamps.map fun timestamp => ⟨timestamp, 1, 1, 1, 1, 0⟩

/-- Three hourly bars, and the same ones with the last two exchanged. -/
theorem bars_accepted_exactly_hourly :
    (∀ bar ∈ barsAt [0, 3600000, 7200000], fitsWord bar.timestamp = true) ∧
    (∀ bar ∈ barsAt [0, 7200000, 3600000], fitsWord bar.timestamp = true) ∧
    ofValidBars (barsAt [0, 3600000, 7200000]) = .ok (columns (barsAt [0, 3600000, 7200000])) ∧
    ∃ bar, IsFirstBreak (· < ·) [0, 7200000, 3600000] bar ∧
      ofValidBars (barsAt [0, 7200000, 3600000]) = .error (.timestampOrder bar) := by
  have hrising : ∀ bar ∈ barsAt [0, 3600000, 7200000], fitsWord bar.timestamp = true := by decide
  have hbroken : ∀ bar ∈ barsAt [0, 7200000, 3600000], fitsWord bar.timestamp = true := by decide
  refine ⟨hrising, hbroken, ?_, ?_⟩
  · have hsound : Sound (· < ·) (barsAt [0, 3600000, 7200000]) := by
      refine ⟨by decide, by decide, ?_⟩
      intro bar hbar
      obtain ⟨timestamp, _, rfl⟩ := List.mem_map.1 hbar
      have hone : Arith.isFinite (1 : Float) = true := by decide +kernel
      exact ⟨hone, hone, hone, hone⟩
    exact (((bars_accepted_exactly hrising).2 (by decide)).accepted _).2 ⟨hsound, rfl⟩
  · exact ((bars_accepted_exactly hbroken).2 (by decide)).disorder (by decide)

/-- The least and the greatest timestamp that 64 bits hold are accepted in falling order and refused
in rising order. -/
theorem far_timestamps_misjudged :
    (∀ timestamp ∈ [-wordBound, wordBound - 1], fitsWord timestamp = true) ∧
    ¬ [wordBound - 1, -wordBound].IsChain (· < ·) ∧
    ofValidBars (barsAt [wordBound - 1, -wordBound]) =
      .ok (columns (barsAt [wordBound - 1, -wordBound])) ∧
    [-wordBound, wordBound - 1].IsChain (· < ·) ∧
    ofValidBars (barsAt [-wordBound, wordBound - 1]) = .error (.timestampOrder 1) := by
  refine ⟨by decide, by decide, ?_, by decide, ?_⟩
  · rfl
  · rfl

end Backtest.Prices
