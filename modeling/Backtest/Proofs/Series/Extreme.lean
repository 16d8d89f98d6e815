import Backtest.Proofs.Decimal.Steady
import Backtest.Proofs.Series.Course
import Backtest.Proofs.Series.Length
import Backtest.Series.Extreme
import Backtest.Series.Oscillator

/-!
# Extremes of windows

The best defined value of a window is one of its values, and it leads: no defined value of the
window is ahead of it (`bestOf_cases`).  So the rolling extremes are what their names say, over
windows that are not full and over undefined values too.

The stochastic finds its extremes in another way: it starts from the infinity that everything is
ahead of, and takes each value that is ahead of what it has.  Over defined values both ways lead to
the same number (`foldr_eq_bestOf`), so the stochastic is the position between the rolling extremes
(`extremes_lead_windows`).
-/

namespace Backtest

open Arith

/-! ## The ends of the order -/

/-- Ordered arithmetic in which the two infinities are the ends of the order. -/
structure Extended (α : Type) [Arith α] : Prop extends Ordered α where
  nan_undefined : isNaN (nan : α) = true
  bottom : ∀ x : α, isNaN x = false → less (-infinity) x = true ∨ x = -infinity
  top : ∀ x : α, isNaN x = false → less x infinity = true ∨ x = infinity

namespace Double

open Float.Model

theorem unpack_infinity : (infinity : Float).toModel.unpack = .infinity .positive := by
  have hbits : (infinity : Float).toModel.toBits = 0x7FF0000000000000 := by decide +kernel
  rw [Float.Model.unpack, hbits]
  rfl

theorem unpack_neg_infinity : (-infinity : Float).toModel.unpack = .infinity .negative := by
  have hbits : (-infinity : Float).toModel.toBits = 0xFFF0000000000000 := by decide +kernel
  rw [Float.Model.unpack, hbits]
  rfl

theorem extended : Extended Float where
  toOrdered := ordered
  nan_undefined := steady.nan_undefined
  bottom x hx := by
    rw [less_iff, unpack_neg_infinity]
    change x.toModel.unpack.isNaN = false at hx
    cases hu : x.toModel.unpack with
    | notANumber => rw [hu] at hx; cases hx
    | infinity sign => cases sign with
      | negative => exact .inr (eq_of_unpack (hu.trans unpack_neg_infinity.symm))
      | positive => exact .inl rfl
    | zero | finite => exact .inl rfl
  top x hx := by
    rw [less_iff, unpack_infinity]
    change x.toModel.unpack.isNaN = false at hx
    cases hu : x.toModel.unpack with
    | notANumber => rw [hu] at hx; cases hx
    | infinity sign => cases sign with
      | positive => exact .inr (eq_of_unpack (hu.trans unpack_infinity.symm))
      | negative => exact .inl rfl
    | zero | finite => exact .inl rfl

end Double

namespace Series

/-! ## The best value -/

variable {α : Type} [Arith α] {better atLeast : α → α → Bool} {window : List α}

/-- A test that is passed by what is ahead of another value, against the order that it goes by. -/
structure Follows (better atLeast : α → α → Bool) : Prop where
  better_eq : ∀ x y, isNaN x = false → isNaN y = false → better x y = !atLeast y x
  trans : ∀ x y z, atLeast x y = true → atLeast y z = true → atLeast x z = true
  total : ∀ x y, isNaN x = false → isNaN y = false → atLeast x y = true ∨ atLeast y x = true

/-- A defined value of a window that is at least as good as each defined one. -/
structure Leads (atLeast : α → α → Bool) (window : List α) (best : α) : Prop where
  mem : best ∈ window
  defined : isNaN best = false
  leads : ∀ x ∈ window, isNaN x = false → atLeast best x = true

/-- The value that stands for a window: undefined over undefined values only, else one that leads
the window. -/
structure IsExtremeOf (atLeast : α → α → Bool) (window : List α) (value : α) : Prop where
  undefined_iff : isNaN value = true ↔ ∀ x ∈ window, isNaN x = true
  leads : isNaN value = false → Leads atLeast window value

theorem bestOf_cons_undefined {x : α} (hx : isNaN x = true) (rest : List α) :
    bestOf better (x :: rest) = bestOf better rest := if_pos hx

theorem bestOf_cons {x : α} (hx : isNaN x = false) (rest : List α) :
    bestOf better (x :: rest) = some (match bestOf better rest with
      | none => x
      | some old => if better x old then x else old) := by
  rw [bestOf, List.foldr_cons, hx, if_neg Bool.false_ne_true, ← bestOf]
  cases bestOf better rest with
  | none => rfl
  | some old => exact (apply_ite some (better x old = true) x old).symm

theorem Follows.leads_cons (hfollows : Follows better atLeast) {x best : α} {rest : List α}
    (hx : isNaN x = false) (hbest : Leads atLeast rest best) :
    Leads atLeast (x :: rest) (if better x best then x else best) := by
  have hself : atLeast x x = true := (hfollows.total x x hx hx).elim id id
  rw [hfollows.better_eq x best hx hbest.defined]
  cases hkeeps : atLeast best x with
  | true =>
      refine ⟨List.mem_cons_of_mem x hbest.mem, hbest.defined, fun y hy hdefined => ?_⟩
      rcases List.mem_cons.1 hy with rfl | hy
      · exact hkeeps
      · exact hbest.leads y hy hdefined
  | false =>
      have hahead : atLeast x best = true :=
        (hfollows.total x best hx hbest.defined).resolve_right (Bool.eq_false_iff.1 hkeeps)
      refine ⟨List.mem_cons_self, hx, fun y hy hdefined => ?_⟩
      rcases List.mem_cons.1 hy with rfl | hy
      · exact hself
      · exact hfollows.trans x best y hahead (hbest.leads y hy hdefined)

/-- A window has a value that leads it, or nothing of it is defined. -/
theorem Follows.bestOf_cases (hfollows : Follows better atLeast) (window : List α) :
    (bestOf better window = none ∧ ∀ x ∈ window, isNaN x = true) ∨
      ∃ best, bestOf better window = some best ∧ Leads atLeast window best := by
  induction window with
  | nil => exact .inl ⟨rfl, nofun⟩
  | cons x rest ih =>
      cases hx : isNaN x with
      | true =>
          rw [bestOf_cons_undefined hx]
          rcases ih with ⟨hnone, hall⟩ | ⟨best, hbest, hleads⟩
          · exact .inl ⟨hnone, List.forall_mem_cons.2 ⟨hx, hall⟩⟩
          · refine .inr ⟨best, hbest, List.mem_cons_of_mem x hleads.mem, hleads.defined, ?_⟩
            refine List.forall_mem_cons.2 ⟨fun hdefined => ?_, hleads.leads⟩
            rw [hx] at hdefined
            cases hdefined
      | false =>
          rw [bestOf_cons hx]
          rcases ih with ⟨hnone, hall⟩ | ⟨best, hbest, hleads⟩
          · rw [hnone]
            have hself : atLeast x x = true := (hfollows.total x x hx hx).elim id id
            refine .inr ⟨x, rfl, List.mem_cons_self, hx, ?_⟩
            refine List.forall_mem_cons.2 ⟨fun _ => hself, fun y hy hdefined => ?_⟩
            rw [hall y hy] at hdefined
            cases hdefined
          · rw [hbest]
            exact .inr ⟨_, rfl, hfollows.leads_cons hx hleads⟩

theorem Follows.isExtremeOf (hfollows : Follows better atLeast) (hnan : isNaN (nan : α) = true)
    (window : List α) : IsExtremeOf atLeast window ((bestOf better window).getD nan) := by
  rcases hfollows.bestOf_cases window with ⟨hnone, hall⟩ | ⟨best, hbest, hleads⟩
  · rw [hnone, Option.getD_none]
    refine ⟨iff_of_true hnan hall, fun hdefined => ?_⟩
    rw [hnan] at hdefined
    cases hdefined
  · rw [hbest, Option.getD_some]
    refine ⟨iff_of_false (Bool.eq_false_iff.1 hleads.defined) fun hall => ?_, fun _ => hleads⟩
    have hundefined := hall best hleads.mem
    rw [hleads.defined] at hundefined
    cases hundefined

/-- To start from a value that everything else is ahead of is to start from nothing. -/
theorem foldr_eq_bestOf {least : α} (hleast : ∀ x, isNaN x = false → better x least = true ∨ x = least)
    (hdefined : ∀ x ∈ window, isNaN x = false) :
    window.foldr (fun x best => if better x best then x else best) least =
      (bestOf better window).getD least := by
  induction window with
  | nil => rfl
  | cons x rest ih =>
      obtain ⟨hx, hrest⟩ := List.forall_mem_cons.1 hdefined
      rw [List.foldr_cons, ih hrest, bestOf_cons hx, Option.getD_some]
      cases bestOf better rest with
      | some best => rfl
      | none =>
          rcases hleast x hx with hahead | heq
          · exact if_pos hahead
          · rw [Option.getD_none, heq, ite_self]

/-! ## Rolling windows -/

/-- The values of the last bars up to one bar: as many as a window has, or as there are. -/
def windowAt {ι : Type} (period bar : Nat) (xs : List ι) : List ι :=
  (xs.take (bar + 1)).drop (bar + 1 - period)

section Rolling

variable {ι : Type} {xs : List ι} {period bar : Nat}

theorem length_windowAt (period : Nat) (hbar : bar < xs.length) :
    (windowAt period bar xs).length = min period (bar + 1) := by
  rw [windowAt, List.length_drop, List.length_take]
  omega

theorem windowAt_ne_nil (hperiod : 1 ≤ period) (hbar : bar < xs.length) :
    windowAt period bar xs ≠ [] := by
  rw [← List.length_pos_iff, length_windowAt period hbar]
  omega

/-- The latest of the bars so far, the latest first, are the window backwards. -/
theorem take_reverse_take (period : Nat) (hbar : bar < xs.length) :
    (xs.take (bar + 1)).reverse.take period = (windowAt period bar xs).reverse := by
  rw [List.take_reverse, windowAt, List.length_take, Nat.min_eq_left hbar]

theorem mem_of_mem_windowAt {x : ι} (hx : x ∈ windowAt period bar xs) : x ∈ xs :=
  List.mem_of_mem_take (List.mem_of_mem_drop hx)

theorem windowAt_map {κ : Type} (f : ι → κ) (period bar : Nat) (xs : List ι) :
    windowAt period bar (xs.map f) = (windowAt period bar xs).map f := by
  rw [windowAt, windowAt, ← List.map_take, ← List.map_drop]

end Rolling

variable {xs : Series α} {period bar : Nat}

theorem getElem?_extreme (better : α → α → Bool) (period : Nat) (hbar : bar < xs.length) :
    (extreme better period xs)[bar]? =
      some ((bestOf better (windowAt period bar xs).reverse).getD nan) := by
  rw [extreme, getElem?_trailing _ hbar, take_reverse_take period hbar]

/-- A rolling extreme is the extreme of each window. -/
theorem Follows.extreme_isExtremeOf (hfollows : Follows better atLeast)
    (hnan : isNaN (nan : α) = true) (period : Nat) (hbar : bar < xs.length) :
    ∃ value, (extreme better period xs)[bar]? = some value ∧
      IsExtremeOf atLeast (windowAt period bar xs) value := by
  obtain ⟨hundefined, hleads⟩ := hfollows.isExtremeOf hnan (windowAt period bar xs).reverse
  simp only [List.mem_reverse] at hundefined
  refine ⟨_, getElem?_extreme better period hbar, hundefined, fun hdefined => ?_⟩
  obtain ⟨hmem, hdefined, hleads⟩ := hleads hdefined
  simp only [List.mem_reverse] at hmem hleads
  exact ⟨hmem, hdefined, hleads⟩

end Series

/-! ## The position between the extremes -/

namespace Ordered

variable {α : Type} [Arith α] (hordered : Ordered α)
include hordered

theorem follows_highest : Series.Follows (α := α) (fun x old => less old x)
    (fun best x => atMost x best) where
  better_eq _ _ hx hy := hordered.less_eq_not_atMost hy hx
  trans x y z hxy hyz := hordered.atMost_trans z y x hyz hxy
  total x y hx hy := hordered.atMost_total y x hy hx

theorem follows_lowest : Series.Follows (α := α) less (fun best x => atMost best x) where
  better_eq _ _ hx hy := hordered.less_eq_not_atMost hx hy
  trans x y z hxy hyz := hordered.atMost_trans x y z hxy hyz
  total x y hx hy := hordered.atMost_total x y hx hy

end Ordered

namespace Series

variable {α : Type} [Arith α] {better atLeast : α → α → Bool} {xs source high low : Series α}
variable {least : α} {period bar : Nat}

/-- Over defined values a rolling extreme can start from a value that everything else is ahead of. -/
theorem Follows.extreme_eq_foldr (hfollows : Follows better atLeast)
    (hleast : ∀ x, isNaN x = false → better x least = true ∨ x = least) (hperiod : 1 ≤ period)
    (hdefined : ∀ x ∈ xs, isNaN x = false) (hbar : bar < xs.length) :
    (extreme better period xs)[bar]? = some ((windowAt period bar xs).reverse.foldr
      (fun x best => if better x best then x else best) least) := by
  have hwindow : ∀ x ∈ (windowAt period bar xs).reverse, isNaN x = false := fun x hx =>
    hdefined x (mem_of_mem_windowAt (List.mem_reverse.1 hx))
  rw [getElem?_extreme better period hbar, foldr_eq_bestOf hleast hwindow]
  rcases hfollows.bestOf_cases (windowAt period bar xs).reverse with ⟨_, hall⟩ | ⟨best, hbest, _⟩
  · obtain ⟨x, hx⟩ := List.exists_mem_of_ne_nil _ (windowAt_ne_nil hperiod hbar)
    have hundefined := hall x (List.mem_reverse.2 hx)
    rw [hdefined x (mem_of_mem_windowAt hx)] at hundefined
    cases hundefined
  · rw [hbest, Option.getD_some, Option.getD_some]

/-- The bars as the stochastic sees them. -/
def extents (source high low : Series α) : List (Extent α) :=
  List.zipWith (fun x range => ⟨x, range.1, range.2⟩) source (high.zip low)

section Extents

variable (hhigh : high.length = source.length) (hlow : low.length = source.length)
include hhigh hlow

omit [Arith α] in
theorem map_source_extents : (extents source high low).map Extent.source = source := by
  apply List.ext_getElem <;> simp [extents, hhigh, hlow]

omit [Arith α] in
theorem map_high_extents : (extents source high low).map Extent.high = high := by
  apply List.ext_getElem <;> simp [extents, hhigh, hlow]

omit [Arith α] in
theorem map_low_extents : (extents source high low).map Extent.low = low := by
  apply List.ext_getElem <;> simp [extents, hhigh, hlow]

end Extents

/-- The stochastic at a bar sees the value of its source there and the extremes of the window. -/
theorem getElem?_stochastic (hhigh : high.length = source.length)
    (hlow : low.length = source.length) {x top bottom : α} (hx : source[bar]? = some x)
    (htop : highestOf (windowAt period bar (extents source high low)).reverse = top)
    (hbottom : lowestOf (windowAt period bar (extents source high low)).reverse = bottom) :
    (stochastic period source high low)[bar]? = some (if same top bottom then ofNat 100
      else (x - bottom) / (top - bottom) * ofNat 100) := by
  rw [← map_source_extents hhigh hlow, List.getElem?_map, Option.map_eq_some_iff] at hx
  obtain ⟨latest, hlatest, rfl⟩ := hx
  have hbar := (List.getElem?_eq_some_iff.1 hlatest).1
  have hpast : ((extents source high low).take (bar + 1)).reverse =
      latest :: ((extents source high low).take bar).reverse := by
    rw [List.take_add_one, hlatest, Option.toList_some, List.reverse_append]
    rfl
  rw [← take_reverse_take period hbar] at htop hbottom
  refine (getElem?_trailing (stochasticOf period) hbar).trans (congrArg some ?_)
  rw [hpast] at htop hbottom ⊢
  rw [stochasticOf, htop, hbottom]

/-- The stochastic of defined highs and lows is the position between their rolling extremes. -/
theorem getElem?_stochastic_extremes (hextended : Extended α) (hperiod : 1 ≤ period)
    (hhigh : high.length = source.length) (hlow : low.length = source.length)
    (hhighs : ∀ x ∈ high, isNaN x = false) (hlows : ∀ x ∈ low, isNaN x = false) {x : α}
    (hx : source[bar]? = some x) :
    ∃ top bottom, (highest period high)[bar]? = some top ∧
      (lowest period low)[bar]? = some bottom ∧
      (stochastic period source high low)[bar]? = some (if same top bottom then ofNat 100
        else (x - bottom) / (top - bottom) * ofNat 100) := by
  have hbar := (List.getElem?_eq_some_iff.1 hx).1
  refine ⟨_, _, ?_, ?_, getElem?_stochastic hhigh hlow hx rfl rfl⟩
  · have hwindow : ((windowAt period bar (extents source high low)).reverse.map Extent.high) =
        (windowAt period bar high).reverse := by
      rw [List.map_reverse, ← windowAt_map, map_high_extents hhigh hlow]
    rw [highest, hextended.follows_highest.extreme_eq_foldr hextended.bottom hperiod hhighs
      (hhigh.symm ▸ hbar), ← hwindow, List.foldr_map]
    rfl
  · have hwindow : ((windowAt period bar (extents source high low)).reverse.map Extent.low) =
        (windowAt period bar low).reverse := by
      rw [List.map_reverse, ← windowAt_map, map_low_extents hhigh hlow]
    rw [lowest, hextended.follows_lowest.extreme_eq_foldr hextended.top hperiod hlows
      (hlow.symm ▸ hbar), ← hwindow, List.foldr_map]
    rfl

/-! ## All windows -/

/-- The rolling extremes of a series stand for its windows, each for the values up to its bar. -/
structure ExtremesLead (period : Nat) (xs : Series α) : Prop where
  window : ∀ bar < xs.length, (windowAt period bar xs).length = min period (bar + 1)
  highest : ∀ bar < xs.length, ∃ top, (highest period xs)[bar]? = some top ∧
    IsExtremeOf (fun best x => atMost x best) (windowAt period bar xs) top
  lowest : ∀ bar < xs.length, ∃ bottom, (lowest period xs)[bar]? = some bottom ∧
    IsExtremeOf (fun best x => atMost best x) (windowAt period bar xs) bottom

/-- The stochastic of a source is its position between rolling extremes, in percent. -/
def LiesBetween (period : Nat) (source high low : Series α) : Prop :=
  ∀ (bar : Nat) (x : α), source[bar]? = some x → ∃ top bottom, (highest period high)[bar]? = some top ∧
    (lowest period low)[bar]? = some bottom ∧
    (stochastic period source high low)[bar]? = some (if same top bottom then ofNat 100
      else (x - bottom) / (top - bottom) * ofNat 100)

/-- The highest and lowest values lead their windows, whatever is undefined there, and the
stochastic agrees with them wherever highs and lows are defined. -/
theorem extremes_lead_windows (hextended : Extended α) {period : Nat} (hperiod : 1 ≤ period) :
    (∀ xs : Series α, ExtremesLead period xs) ∧
      ∀ source high low : Series α, high.length = source.length → low.length = source.length →
        (∀ x ∈ high, isNaN x = false) → (∀ x ∈ low, isNaN x = false) →
          LiesBetween period source high low := by
  have hnan := hextended.nan_undefined
  constructor
  · intro xs
    exact ⟨fun bar hbar => length_windowAt period hbar,
      fun bar hbar => hextended.follows_highest.extreme_isExtremeOf hnan period hbar,
      fun bar hbar => hextended.follows_lowest.extreme_isExtremeOf hnan period hbar⟩
  · intro source high low hhigh hlow hhighs hlows bar x hx
    exact getElem?_stochastic_extremes hextended hperiod hhigh hlow hhighs hlows hx

/-- A series with a gap that is longer than a window of two bars. -/
def gapped : Series Float := [nan, ofNat 3, ofNat 7, nan, nan, ofNat 5]

/-- Over the gap there is nothing to lead; the stochastic of a bar without extent is full. -/
theorem extremes_lead_windows_gapped :
    Extended Float ∧ 1 ≤ 2 ∧ ExtremesLead 2 gapped ∧
      (highest 2 gapped).map Arith.text = ["nan", "3.0", "7.0", "7.0", "nan", "5.0"] ∧
      (lowest 2 gapped).map Arith.text = ["nan", "3.0", "3.0", "7.0", "nan", "5.0"] ∧
      LiesBetween 2 gapped (List.replicate 6 (ofNat 9)) (List.replicate 6 (ofNat 1)) ∧
      (stochastic 2 gapped (List.replicate 6 (ofNat 9)) (List.replicate 6 (ofNat 1))).map
        Arith.text = ["nan", "25.0", "75.0", "nan", "nan", "50.0"] := by
  have hhighs : ∀ x ∈ List.replicate 6 (ofNat 9 : Float), isNaN x = false := by decide +kernel
  have hlows : ∀ x ∈ List.replicate 6 (ofNat 1 : Float), isNaN x = false := by decide +kernel
  obtain ⟨hlead, hbetween⟩ := extremes_lead_windows Double.extended (by decide : 1 ≤ 2)
  have hposition := hbetween gapped _ _ (by decide) (by decide) hhighs hlows
  refine ⟨Double.extended, by decide, hlead gapped, ?_, ?_, hposition, ?_⟩
  · decide +kernel
  · decide +kernel
  · decide +kernel

end Series

end Backtest
