import Backtest.Proofs.Calendar
import Backtest.Summary.Metrics
import Backtest.Summary.Monthly
import Mathlib.Data.List.Perm.Basic

/-!
# The months of some trades

The months in which trades are closed form a rising list (`pairwise_monthsOf`), and the row of a
month is about the trades that are closed on a day of it.  So the rows split the trades into groups:
a list is, up to order, its groups by any keys that are all different (`groups_perm`), and it is
these groups in a row if it is sorted by its keys (`groups_eq`).
-/

namespace Backtest

/-! ## Groups -/

section Groups

variable {β κ ι : Type} [DecidableEq κ] [LinearOrder ι] (key : β → κ)
variable {rank : κ → ι} {keys : List κ}

/-- The entries of a list, one key after the other. -/
def groups (keys : List κ) (xs : List β) : List β :=
  keys.flatMap fun k => xs.filter fun x => key x = k

/-- Behind the group of a key the other entries stand in their groups. -/
theorem groups_cons {k : κ} (hnew : k ∉ keys) (xs : List β) :
    groups key (k :: keys) xs =
      (xs.filter fun x => key x = k) ++
        groups key keys (xs.filter fun x => !decide (key x = k)) := by
  rw [groups, List.flatMap_cons, groups]
  congr 1
  refine List.flatMap_congr fun other hother => ?_
  rw [List.filter_filter]
  refine List.filter_congr fun x _ => ?_
  by_cases hx : key x = other
  · have hne : key x ≠ k := fun hk => hnew (hk ▸ hx ▸ hother)
    simp only [hx, hx ▸ hne, decide_true, decide_false, Bool.not_false, Bool.and_true]
  · simp only [hx, decide_false, Bool.false_and]

theorem mem_of_mem_filter_not {k : κ} {xs : List β} (hkeys : ∀ x ∈ xs, key x ∈ k :: keys) :
    ∀ x ∈ xs.filter fun x => !decide (key x = k), key x ∈ keys := by
  intro x hx
  obtain ⟨hx, hne⟩ := List.mem_filter.1 hx
  exact (List.mem_cons.1 (hkeys x hx)).resolve_left (by simpa using hne)

/-- The groups of a list by all of its keys are a rearrangement of it. -/
theorem groups_perm (hnodup : keys.Nodup) {xs : List β} (hkeys : ∀ x ∈ xs, key x ∈ keys) :
    (groups key keys xs).Perm xs := by
  induction keys generalizing xs with
  | nil =>
      cases xs with
      | nil => exact .rfl
      | cons x rest => exact absurd (hkeys x List.mem_cons_self) List.not_mem_nil
  | cons k keys ih =>
      obtain ⟨hnew, hnodup⟩ := List.nodup_cons.1 hnodup
      rw [groups_cons key hnew]
      refine .trans (.append_left _ (ih hnodup (mem_of_mem_filter_not key hkeys))) ?_
      exact List.filter_append_perm _ xs

/-- If no entry with a property stands behind one without it, a list is these entries and then the
others. -/
theorem filter_append_filter_not {p : β → Bool} {xs : List β}
    (hfront : xs.Pairwise fun x y => p y = true → p x = true) :
    xs.filter p ++ xs.filter (fun x => !p x) = xs := by
  induction xs with
  | nil => rfl
  | cons x rest ih =>
      obtain ⟨hfirst, hrest⟩ := List.pairwise_cons.1 hfront
      cases hx : p x with
      | true =>
          rw [List.filter_cons_of_pos hx, List.filter_cons_of_neg (by simp [hx]), List.cons_append,
            ih hrest]
      | false =>
          have hnone : ∀ y ∈ rest, ¬ p y = true := fun y hy hp =>
            Bool.false_ne_true (hx ▸ hfirst y hy hp)
          rw [List.filter_cons_of_neg (by simp [hx]), List.filter_cons_of_pos (by simp [hx]),
            List.filter_eq_nil_iff.2 hnone, List.filter_eq_self.2 (by simpa using hnone),
            List.nil_append]

/-- A list that is sorted by its keys is its groups in a row. -/
theorem groups_eq (hrising : keys.Pairwise fun k l => rank k < rank l) {xs : List β}
    (hsorted : xs.Pairwise fun x y => rank (key x) ≤ rank (key y))
    (hkeys : ∀ x ∈ xs, key x ∈ keys) : groups key keys xs = xs := by
  induction keys generalizing xs with
  | nil =>
      cases xs with
      | nil => rfl
      | cons x rest => exact absurd (hkeys x List.mem_cons_self) List.not_mem_nil
  | cons k keys ih =>
      obtain ⟨hleast, hrising⟩ := List.pairwise_cons.1 hrising
      have hnew : k ∉ keys := fun hk => (hleast k hk).ne rfl
      rw [groups_cons key hnew, ih hrising (hsorted.filter _) (mem_of_mem_filter_not key hkeys)]
      refine filter_append_filter_not (hsorted.imp_of_mem fun {x y} hx _ hle hy => ?_)
      rw [decide_eq_true_iff] at hy ⊢
      rcases List.mem_cons.1 (hkeys x hx) with hk | hk
      · exact hk
      · exact absurd (hy ▸ hle) (hleast _ hk).not_ge

end Groups

namespace Summary

open Calendar

/-! ## Months in order -/

section Months

variable {α : Type} {month other : ℤ × ℕ} {months : List (ℤ × ℕ)} {trades : List (Trade α)}

theorem earlierMonth_iff : earlierMonth month other = true ↔ monthKey month < monthKey other := by
  rw [monthKey, monthKey, Prod.Lex.toLex_lt_toLex, earlierMonth]
  simp only [Bool.or_eq_true, Bool.and_eq_true, decide_eq_true_eq, beq_iff_eq]

theorem mem_insertMonth : other ∈ insertMonth month months ↔ other = month ∨ other ∈ months := by
  induction months with
  | nil => exact List.mem_cons
  | cons first rest ih =>
      rw [insertMonth]
      split
      · exact List.mem_cons
      · split
        · next hsame =>
            rw [hsame, List.mem_cons]
            exact ⟨.inr, fun h => h.elim .inl id⟩
        · rw [List.mem_cons, ih, List.mem_cons, or_left_comm]

/-- A month is put where it belongs. -/
theorem pairwise_insertMonth
    (hrising : months.Pairwise fun first second => monthKey first < monthKey second)
    (month : ℤ × ℕ) :
    (insertMonth month months).Pairwise fun first second => monthKey first < monthKey second := by
  induction months with
  | nil => exact List.pairwise_singleton _ _
  | cons first rest ih =>
      obtain ⟨hfirst, hrest⟩ := List.pairwise_cons.1 hrising
      rw [insertMonth]
      split
      · next hearlier =>
          rw [earlierMonth_iff] at hearlier
          refine List.pairwise_cons.2 ⟨fun later hlater => ?_, hrising⟩
          rcases List.mem_cons.1 hlater with rfl | hlater
          · exact hearlier
          · exact hearlier.trans (hfirst later hlater)
      · next hnot =>
          split
          · exact hrising
          · next hne =>
              rw [earlierMonth_iff, not_lt] at hnot
              have hlater : monthKey first < monthKey month :=
                hnot.lt_of_ne fun heq => hne (toLex_inj.1 heq).symm
              refine List.pairwise_cons.2 ⟨fun later hmem => ?_, ih hrest⟩
              rcases mem_insertMonth.1 hmem with rfl | hmem
              · exact hlater
              · exact hfirst later hmem

/-- The months of some trades are those in which one of them is closed. -/
theorem mem_monthsOf : month ∈ monthsOf trades ↔ ∃ trade ∈ trades, monthOfExit trade = month := by
  have hfold (months : List (ℤ × ℕ)) :
      month ∈ trades.foldl (fun months trade => insertMonth (monthOfExit trade) months) months ↔
        month ∈ months ∨ ∃ trade ∈ trades, monthOfExit trade = month := by
    induction trades generalizing months with
    | nil => simp only [List.foldl_nil, List.not_mem_nil, false_and, exists_false, or_false]
    | cons trade rest ih =>
        rw [List.foldl_cons, ih, mem_insertMonth, List.exists_mem_cons_iff, or_assoc, or_left_comm,
          eq_comm]
  exact (hfold []).trans (or_iff_right List.not_mem_nil)

/-- The months of some trades rise. -/
theorem pairwise_monthsOf (trades : List (Trade α)) :
    (monthsOf trades).Pairwise fun first second => monthKey first < monthKey second := by
  rw [monthsOf]
  generalize hmonths : ([] : List (ℤ × ℕ)) = months
  have hrising : months.Pairwise fun first second => monthKey first < monthKey second :=
    hmonths ▸ List.Pairwise.nil
  clear hmonths
  induction trades generalizing months with
  | nil => exact hrising
  | cons trade rest ih => exact ih _ (pairwise_insertMonth hrising _)

end Months

/-! ## Trades of a month -/

section Trades

variable {α : Type} {month : ℤ × ℕ} {trade : Trade α} {trades : List (Trade α)}

/-- A trade is closed on a day of a month. -/
def ClosedIn (month : ℤ × ℕ) (trade : Trade α) : Prop :=
  ∃ day, OnDay trade.exitTimestamp day ∧ (day.year, day.month) = month

theorem monthOfExit_eq_iff : monthOfExit trade = month ↔ ClosedIn month trade := by
  constructor
  · exact fun hmonth => ⟨_, onDay_ofMillis _, hmonth⟩
  · rintro ⟨day, hday, hmonth⟩
    rw [monthOfExit, onDay_iff.1 hday]
    exact hmonth

instance (month : ℤ × ℕ) (trade : Trade α) : Decidable (ClosedIn month trade) :=
  decidable_of_iff _ monthOfExit_eq_iff

/-- The trades that are closed in the month of a row. -/
def ownTrades (trades : List (Trade α)) (row : MonthlyRow α) : List (Trade α) :=
  trades.filter fun trade => ClosedIn (row.year, row.month) trade

theorem filter_monthOfExit (trades : List (Trade α)) (month : ℤ × ℕ) :
    (trades.filter fun trade => monthOfExit trade = month) =
      trades.filter fun trade => ClosedIn month trade :=
  List.filter_congr fun _ _ => decide_eq_decide.2 monthOfExit_eq_iff

/-- Trades that are closed one after the other are closed in months that do not fall. -/
theorem pairwise_monthOfExit
    (hexits : trades.Pairwise fun first second => first.exitTimestamp ≤ second.exitTimestamp) :
    trades.Pairwise fun first second =>
      monthKey (monthOfExit first) ≤ monthKey (monthOfExit second) :=
  hexits.imp fun hle =>
    monthKey_le_of_date_le ((onDay_ofMillis _).date_le_date (onDay_ofMillis _) hle)

variable [Arith α]

theorem ownTrades_monthlyRow (trades others : List (Trade α)) (month : ℤ × ℕ) :
    ownTrades trades (monthlyRow others month) =
      trades.filter fun trade => monthOfExit trade = month :=
  (filter_monthOfExit trades month).symm

/-- The own trades of all rows are the groups of the trades by month. -/
theorem flatMap_ownTrades (trades : List (Trade α)) :
    ((monthsOf trades).map (monthlyRow trades)).flatMap (ownTrades trades) =
      groups monthOfExit (monthsOf trades) trades := by
  rw [groups, List.flatMap_map]
  exact List.flatMap_congr fun month _ => ownTrades_monthlyRow trades trades month

end Trades

end Summary

end Backtest
