import Backtest.Prices
import Backtest.Proofs.Outcome

/-!
# Accepted price tables

What the check of a run guarantees about the table it lets through, and the faults by which it turns
a list of bars away: a timestamp that no 64-bit integer holds, or bars that are invalid.
-/

namespace Backtest.Prices

open Outcome

variable {α : Type} [Arith α]

/-- A table that a run computes with. -/
structure Accepted (prices : Prices α) : Prop where
  nonempty : 0 < prices.length
  timestamps : prices.timestamp.length = prices.length
  words : ∀ timestamp ∈ prices.timestamp, fitsWord timestamp = true
  finite : ∀ x ∈ prices.close, Arith.isFinite x = true

theorem validate_eq_ok {prices checked : Prices α} (hchecked : prices.validate = .ok checked) :
    checked = prices ∧ prices.length ≠ 0 ∧ prices.firstUndefined = none := by
  rw [validate] at hchecked
  split at hchecked
  · exact nomatch hchecked
  · next hlength =>
      split at hchecked
      · exact nomatch hchecked
      · split at hchecked
        · exact nomatch hchecked
        · next hfinite =>
            injection hchecked with hchecked
            exact ⟨hchecked.symm, hlength, hfinite⟩

theorem finite_of_firstUndefined {prices : Prices α} (hnone : prices.firstUndefined = none) :
    ∀ x ∈ prices.close, Arith.isFinite x = true := by
  rw [firstUndefined, List.findSome?_eq_none_iff] at hnone
  have hclose := Option.map_eq_none_iff.1 (hnone ("close", prices.close) (by simp))
  intro x hx
  simpa using List.findIdx?_eq_none_iff.1 hclose x hx

/-- The table of some bars has their closes and their timestamps. -/
theorem columns_of_ofValidBars {bars : List (Bar α)} {prices : Prices α}
    (hprices : ofValidBars bars = .ok prices) :
    prices.close = bars.map (·.close) ∧ prices.timestamp = bars.map (·.timestamp) := by
  obtain ⟨columns, hcolumns, hchecked⟩ := bind_eq_ok.1 hprices
  obtain ⟨rfl, _⟩ := validate_eq_ok hchecked
  rw [ofBars] at hcolumns
  split at hcolumns
  · injection hcolumns with hcolumns
    rw [← hcolumns]
    exact ⟨rfl, rfl⟩
  · exact nomatch hcolumns

theorem ofValidBars_accepted {bars : List (Bar α)} {prices : Prices α}
    (hprices : ofValidBars bars = .ok prices) : prices.Accepted := by
  obtain ⟨hclose, htimestamp⟩ := columns_of_ofValidBars hprices
  obtain ⟨columns, hcolumns, hchecked⟩ := bind_eq_ok.1 hprices
  obtain ⟨rfl, hlength, hfinite⟩ := validate_eq_ok hchecked
  refine ⟨Nat.pos_of_ne_zero hlength, ?_, ?_, finite_of_firstUndefined hfinite⟩
  · rw [length, hclose, htimestamp, List.length_map, List.length_map]
  · rw [ofBars] at hcolumns
    split at hcolumns
    · next hwords =>
        rw [htimestamp]
        exact List.forall_mem_map.2 (List.all_eq_true.1 hwords)
    · exact nomatch hcolumns

/-- Bars that a run does not accept are invalid, or have a timestamp that is too large. -/
theorem ofValidBars_failsBy (bars : List (Bar α)) :
    FailsBy (fun fault => fault.kind = .invalid ∨ fault = .timestampTooLarge)
      (ofValidBars bars) := by
  refine failsBy_bind ?_ fun prices _ => ?_
  · rw [ofBars]
    split
    · exact failsBy_ok _ _
    · exact failsBy_error (.inr rfl)
  · rw [validate]
    split
    · exact failsBy_error (.inl rfl)
    · split
      · exact failsBy_error (.inl rfl)
      · split
        · exact failsBy_error (.inl rfl)
        · exact failsBy_ok _ _

end Backtest.Prices
