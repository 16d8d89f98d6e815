import Backtest.Series.Basic

/-!
# The course of a walk

What a walk over a series gives at a bar, without the walk.  If the states of the walk are known as
a function of the bar, one step at a time, then so are its values (`getElem?_scan`): a trailing
value is that of the bars so far, the latest first (`getElem?_trailing`), and a step sees the bar
before it (`getElem?_stepwise`).  Where the values have a closed form too, the whole walk is a table of it
(`scan_eq_tabulate`).
-/

namespace Backtest.Series

variable {ι κ σ β : Type}

/-! ## Walks -/

/-- A walk whose states are known gives what the step at each bar makes of them. -/
theorem getElem?_scan {step : σ → ι → σ × β} (states : Nat → σ) {xs : List ι}
    (hstep : ∀ bar x, xs[bar]? = some x → (step (states bar) x).1 = states (bar + 1)) (bar : Nat) :
    (scan step (states 0) xs)[bar]? = xs[bar]?.map fun x => (step (states bar) x).2 := by
  induction xs generalizing states bar with
  | nil => rfl
  | cons x rest ih =>
      cases bar with
      | zero => rfl
      | succ bar =>
          rw [scan_cons, hstep 0 x rfl]
          exact ih (fun bar => states (bar + 1)) (fun bar y hy => hstep (bar + 1) y hy) bar

/-- The value at a bar is that of the bars up to it. -/
theorem getElem?_trailing (value : List ι → β) {xs : List ι} {bar : Nat} (hbar : bar < xs.length) :
    (trailing value xs)[bar]? = some (value (xs.take (bar + 1)).reverse) := by
  have hpast (bar : Nat) (x : ι) (hx : xs[bar]? = some x) :
      x :: (xs.take bar).reverse = (xs.take (bar + 1)).reverse := by
    rw [List.take_add_one, hx, Option.toList_some, List.reverse_append]
    rfl
  have hx := List.getElem?_eq_getElem hbar
  rw [← hpast bar _ hx]
  exact (getElem?_scan (fun bar => (xs.take bar).reverse) hpast bar).trans
    (congrArg (Option.map _) hx)

/-- From the second bar on, a step sees the value of the bar before. -/
theorem getElem?_stepwise (value : Option ι → ι → β) (xs : List ι) (bar : Nat) :
    (stepwise value xs)[bar + 1]? = xs[bar + 1]?.map (value xs[bar]?) := by
  let last : Nat → Option ι
    | 0 => none
    | bar + 1 => xs[bar]?
  exact getElem?_scan last (fun _ _ hx => hx.symm) (bar + 1)

/-! ## Tables -/

/-- The values of a function at the first bars. -/
def tabulate (count : Nat) (value : Nat → β) : List β := (List.range count).map value

@[simp]
theorem length_tabulate (count : Nat) (value : Nat → β) :
    (tabulate count value).length = count := by
  rw [tabulate, List.length_map, List.length_range]

theorem getElem?_tabulate (value : Nat → β) {count bar : Nat} (hbar : bar < count) :
    (tabulate count value)[bar]? = some (value bar) := by
  rw [tabulate, List.getElem?_map, List.getElem?_range hbar]
  rfl

theorem tabulate_succ (count : Nat) (value : Nat → β) :
    tabulate (count + 1) value = value 0 :: tabulate count fun bar => value (bar + 1) := by
  rw [tabulate, List.range_succ_eq_map, List.map_cons, List.map_map]
  rfl

theorem take_tabulate (kept count : Nat) (value : Nat → β) :
    (tabulate count value).take kept = tabulate (min kept count) value := by
  rw [tabulate, ← List.map_take, List.take_range, tabulate]

/-- A table from its end is a table too. -/
theorem reverse_tabulate (count : Nat) (value : Nat → β) :
    (tabulate count value).reverse = tabulate count fun back => value (count - 1 - back) := by
  apply List.ext_getElem
  · rw [List.length_reverse, length_tabulate, length_tabulate]
  · intro back _ _
    simp only [tabulate, List.getElem_reverse, List.getElem_map, List.getElem_range,
      List.length_map, List.length_range]

theorem map_tabulate (f : β → κ) (count : Nat) (value : Nat → β) :
    (tabulate count value).map f = tabulate count fun bar => f (value bar) := List.map_map

theorem zipWith_tabulate (f : β → ι → κ) (count : Nat) (value : Nat → β) (other : Nat → ι) :
    List.zipWith f (tabulate count value) (tabulate count other) =
      tabulate count fun bar => f (value bar) (other bar) := by
  rw [tabulate, tabulate, List.zipWith_map, List.zipWith_self]
  rfl

theorem zipIdx_tabulate (count : Nat) (value : Nat → β) :
    (tabulate count value).zipIdx = tabulate count fun bar => (value bar, bar) := by
  apply List.ext_getElem
  · rw [List.length_zipIdx, length_tabulate, length_tabulate]
  · intro bar _ _
    simp only [tabulate, List.getElem_zipIdx, List.getElem_map, List.getElem_range, Nat.zero_add]

theorem tabulate_congr {count : Nat} {value other : Nat → β}
    (hsame : ∀ bar < count, value bar = other bar) : tabulate count value = tabulate count other :=
  List.map_congr_left fun bar hbar => hsame bar (List.mem_range.1 hbar)

/-- A series is the table of a function that has its values. -/
theorem eq_tabulate {value : Nat → β} {xs : List β}
    (hvalue : ∀ bar x, xs[bar]? = some x → x = value bar) : xs = tabulate xs.length value := by
  apply List.ext_getElem?
  intro bar
  rcases Nat.lt_or_ge bar xs.length with hbar | hbar
  · have hx := List.getElem?_eq_getElem hbar
    rw [getElem?_tabulate value hbar, hx, hvalue bar _ hx]
  · rw [List.getElem?_eq_none hbar, List.getElem?_eq_none (by rwa [length_tabulate])]

/-- A walk whose steps lead through known states is the table of the values of these steps. -/
theorem scan_eq_tabulate {step : σ → ι → σ × β} (states : Nat → σ) (value : Nat → β) {xs : List ι}
    (hstep : ∀ bar x, xs[bar]? = some x → step (states bar) x = (states (bar + 1), value bar)) :
    scan step (states 0) xs = tabulate xs.length value := by
  rw [← length_scan step (states 0) xs]
  refine eq_tabulate fun bar y hy => ?_
  rw [getElem?_scan states fun bar x hx => congrArg Prod.fst (hstep bar x hx)] at hy
  obtain ⟨x, hx, rfl⟩ := Option.map_eq_some_iff.1 hy
  exact congrArg Prod.snd (hstep bar x hx)

theorem trailing_eq_tabulate (value : List ι → β) (xs : List ι) :
    trailing value xs = tabulate xs.length fun bar => value (xs.take (bar + 1)).reverse := by
  rw [← length_trailing value xs]
  refine eq_tabulate fun bar y hy => ?_
  have hbar : bar < xs.length := by
    rw [← length_trailing value xs]
    exact (List.getElem?_eq_some_iff.1 hy).1
  exact Option.some.inj (hy.symm.trans (getElem?_trailing value hbar))

end Backtest.Series
