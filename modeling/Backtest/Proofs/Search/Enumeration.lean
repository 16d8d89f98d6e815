import Backtest.Proofs.Decimal.Order
import Backtest.Proofs.Record
import Backtest.Random
import Backtest.Search.Combination
import Mathlib.Algebra.BigOperators.Group.List.Basic
import Mathlib.Data.List.Lex

/-!
# The combinations that are enumerated

An index list points at one value of each axis (`IsIndex`), and every combination is the one at some
index list.  If there are no more combinations than the cap, the enumeration goes through all index
lists in lexicographic order, the first axis slowest; otherwise it goes through distinct ones, as
many as the cap.  Axes with distinct names and values then give distinct combinations
(`enumeration_is_complete`).
-/

namespace Backtest.Search

variable {α : Type}

/-! ## Index lists -/

/-- One index into the values of each axis. -/
def IsIndex (axes : List (Axis α)) (indices : List Nat) : Prop :=
  List.Forall₂ (fun index (axis : Axis α) => index < axis.2.length) indices axes

/-- All index lists, the first axis slowest. -/
def indexLists : List (Axis α) → List (List Nat)
  | [] => [[]]
  | axis :: rest =>
      (List.range axis.2.length).flatMap fun index => (indexLists rest).map (index :: ·)

/-- The values at some indices. -/
def valuesAt (axes : List (Axis α)) (indices : List Nat) : List (Scalar α) :=
  List.zipWith (fun axis index => axis.2[index]?.getD .missing) axes indices

/-- The combination at some indices. -/
def combinationAt (axes : List (Axis α)) (indices : List Nat) : Params α :=
  combinationOf axes (valuesAt axes indices)

theorem mem_indexLists {axes : List (Axis α)} {indices : List Nat} :
    indices ∈ indexLists axes ↔ IsIndex axes indices := by
  induction axes generalizing indices with
  | nil => simp [indexLists, IsIndex]
  | cons axis rest ih =>
      rw [indexLists, IsIndex, List.forall₂_cons_right_iff, List.mem_flatMap]
      constructor
      · rintro ⟨index, hindex, hmem⟩
        obtain ⟨others, hothers, rfl⟩ := List.mem_map.1 hmem
        exact ⟨index, others, List.mem_range.1 hindex, ih.1 hothers, rfl⟩
      · rintro ⟨index, others, hindex, hothers, rfl⟩
        exact ⟨index, List.mem_range.2 hindex, List.mem_map_of_mem (ih.2 hothers)⟩

/-- The index lists come in lexicographic order. -/
theorem indexLists_sorted (axes : List (Axis α)) : (indexLists axes).Pairwise (· < ·) := by
  induction axes with
  | nil => exact List.pairwise_singleton _ _
  | cons axis rest ih =>
      rw [indexLists, List.pairwise_flatMap]
      constructor
      · intro index _
        rw [List.pairwise_map]
        exact ih.imp fun hlt => List.cons_lt_cons_iff.2 (.inr ⟨rfl, hlt⟩)
      · refine List.pairwise_lt_range.imp fun hlt first hfirst second hsecond => ?_
        obtain ⟨_, _, rfl⟩ := List.mem_map.1 hfirst
        obtain ⟨_, _, rfl⟩ := List.mem_map.1 hsecond
        exact List.cons_lt_cons_iff.2 (.inl hlt)

/-- The product of the lengths of some axes. -/
def lengthProduct (axes : List (Axis α)) : Nat := (axes.map fun axis => axis.2.length).prod

theorem length_indexLists (axes : List (Axis α)) :
    (indexLists axes).length = lengthProduct axes := by
  induction axes with
  | nil => rfl
  | cons axis rest ih => simp [indexLists, List.length_flatMap, ih, lengthProduct]

/-- Choosing a value of each axis is choosing an index list. -/
theorem choices_eq (axes : List (Axis α)) :
    choices axes = (indexLists axes).map (valuesAt axes) := by
  induction axes with
  | nil => rfl
  | cons axis rest ih =>
      have hvalues : axis.2 =
          (List.range axis.2.length).map fun index => axis.2[index]?.getD .missing := by
        refine List.ext_getElem (by simp) fun index hindex _ => ?_
        simp [hindex]
      rw [choices, indexLists, List.map_flatMap, ih]
      conv_lhs => rw [hvalues]
      rw [List.flatMap_map]
      simp [List.map_map, Function.comp_def, valuesAt]

theorem allCombinations_eq (axes : List (Axis α)) :
    allCombinations axes = (indexLists axes).map (combinationAt axes) := by
  rw [allCombinations, choices_eq, List.map_map]
  rfl

theorem size_eq (axes : List (Axis α)) : size axes = lengthProduct axes := by
  rw [size, lengthProduct, List.prod_eq_foldl]

/-! ## Combinations as records -/

theorem combinationOf_cons {axis : Axis α} {rest : List (Axis α)}
    (hnames : ((axis :: rest).map (·.1)).Nodup) {value : Scalar α} {values : List (Scalar α)}
    (hvalues : values.length = rest.length) :
    combinationOf (axis :: rest) (value :: values) =
      (axis.1, value) :: combinationOf rest values := by
  have hfirst (axes : List (Axis α)) (values : List (Scalar α))
      (hvalues : values.length = axes.length)
      (hnames : (axes.map (·.1)).Nodup) : Record.Distinct ((axes.map (·.1)).zip values) := by
    rw [Record.Distinct, Record.names, List.map_fst_zip (by simp [hvalues])]
    exact hnames
  rw [combinationOf, combinationOf,
    Record.ofEntries_eq_self (hfirst _ _ (by simp [hvalues]) hnames),
    Record.ofEntries_eq_self (hfirst _ _ hvalues (List.nodup_cons.1 hnames).2)]
  rfl

section Indexed

variable {axes : List (Axis α)} {indices others : List Nat}

theorem combinationAt_cons {axis : Axis α} {rest : List (Axis α)} {index : Nat}
    (hnames : ((axis :: rest).map (·.1)).Nodup) (hindices : IsIndex rest indices)
    (hindex : index < axis.2.length) :
    combinationAt (axis :: rest) (index :: indices) =
      (axis.1, axis.2[index]) :: combinationAt rest indices := by
  have hlength : (valuesAt rest indices).length = rest.length := by
    rw [valuesAt, List.length_zipWith, hindices.length_eq, Nat.min_self]
  have hvalues : valuesAt (axis :: rest) (index :: indices) =
      axis.2[index] :: valuesAt rest indices := by
    simp [valuesAt, hindex]
  rw [combinationAt, hvalues, combinationOf_cons hnames hlength, combinationAt]

/-- A combination gives each axis one of its values, and it has no other names. -/
structure Assigns (axes : List (Axis α)) (combination : Params α) : Prop where
  names_eq : combination.names = axes.map (·.1)
  values : ∀ axis ∈ axes, ∃ value ∈ axis.2, combination.get? axis.1 = some value

theorem assigns_combinationAt (hnames : (axes.map (·.1)).Nodup) (hindices : IsIndex axes indices) :
    Assigns axes (combinationAt axes indices) := by
  have hentries : (combinationAt axes indices).names = axes.map (·.1) ∧
      ∀ axis ∈ axes, ∃ value ∈ axis.2, (axis.1, value) ∈ combinationAt axes indices := by
    induction hindices with
    | nil => exact ⟨rfl, nofun⟩
    | @cons index axis indices rest hindex hrest ih =>
        obtain ⟨hothers, hvalues⟩ := ih (List.nodup_cons.1 hnames).2
        rw [combinationAt_cons hnames hrest hindex]
        refine ⟨congrArg (axis.1 :: ·) hothers, List.forall_mem_cons.2 ⟨?_, ?_⟩⟩
        · exact ⟨axis.2[index], List.getElem_mem hindex, List.mem_cons_self⟩
        · intro other hother
          obtain ⟨value, hvalue, hmem⟩ := hvalues other hother
          exact ⟨value, hvalue, List.mem_cons_of_mem _ hmem⟩
  have hdistinct : (combinationAt axes indices).Distinct := by
    rw [Record.Distinct, hentries.1]
    exact hnames
  refine ⟨hentries.1, fun axis haxis => ?_⟩
  obtain ⟨value, hvalue, hmem⟩ := hentries.2 axis haxis
  exact ⟨value, hvalue, Record.get?_of_mem hdistinct hmem⟩

/-- Where a relation holds between any two entries of the value lists, the combinations at different
index lists have values in one place that it relates. -/
theorem exists_place {R : Scalar α → Scalar α → Prop} (hsymm : ∀ x y, R x y → R y x)
    (hnames : (axes.map (·.1)).Nodup) (hvalues : ∀ axis ∈ axes, axis.2.Pairwise R)
    (hindices : IsIndex axes indices) (hothers : IsIndex axes others) (hne : indices ≠ others) :
    ∃ (place : Nat) (name : String) (x y : Scalar α),
      (combinationAt axes indices)[place]? = some (name, x) ∧
        (combinationAt axes others)[place]? = some (name, y) ∧ R x y := by
  induction hindices generalizing others with
  | nil => exact absurd (List.forall₂_nil_right_iff.1 hothers).symm hne
  | @cons index axis indices rest hindex hrest ih =>
      obtain ⟨other, later, hother, hlater, rfl⟩ := List.forall₂_cons_right_iff.1 hothers
      obtain ⟨hfirst, hvalues⟩ := List.forall_mem_cons.1 hvalues
      rw [combinationAt_cons hnames hrest hindex, combinationAt_cons hnames hlater hother]
      by_cases hsame : index = other
      · subst hsame
        have hne : indices ≠ later := fun heq => hne (congrArg _ heq)
        obtain ⟨place, name, x, y, hx, hy, hxy⟩ :=
          ih (List.nodup_cons.1 hnames).2 hvalues hlater hne
        exact ⟨place + 1, name, x, y, hx, hy, hxy⟩
      · refine ⟨0, axis.1, axis.2[index], axis.2[other], rfl, rfl, ?_⟩
        rw [List.pairwise_iff_getElem] at hfirst
        rcases Nat.lt_or_gt_of_ne hsame with hlt | hgt
        · exact hfirst index other hindex hother hlt
        · exact hsymm _ _ (hfirst other index hother hindex hgt)

end Indexed

/-! ## Draws -/

/-- The indices of one draw per axis. -/
def drawIndices {σ : Type} (draw : RandomSource σ) : List (Axis α) → σ → List Nat × σ
  | [], state => ([], state)
  | axis :: rest, state =>
      let drawn := draw state
      let others := drawIndices draw rest drawn.2
      (drawn.1 % axis.2.length :: others.1, others.2)

section Draws

variable {σ : Type} (draw : RandomSource σ)

theorem drawValues_eq (axes : List (Axis α)) (state : σ) :
    drawValues draw axes state =
      (valuesAt axes (drawIndices draw axes state).1, (drawIndices draw axes state).2) := by
  induction axes generalizing state with
  | nil => rfl
  | cons axis rest ih => simp [drawValues, drawIndices, ih, valuesAt]

theorem isIndex_drawIndices {axes : List (Axis α)} (hfull : ∀ axis ∈ axes, 0 < axis.2.length)
    (state : σ) : IsIndex axes (drawIndices draw axes state).1 := by
  induction axes generalizing state with
  | nil => exact .nil
  | cons axis rest ih =>
      obtain ⟨hfirst, hrest⟩ := List.forall_mem_cons.1 hfull
      exact .cons (Nat.mod_lt _ hfirst) (ih hrest _)

/-- Where there are combinations, no axis is empty. -/
theorem length_pos_of_size {axes : List (Axis α)} (hsize : size axes ≠ 0) :
    ∀ axis ∈ axes, 0 < axis.2.length := by
  intro axis haxis
  refine Nat.pos_of_ne_zero fun hempty => hsize ?_
  rw [size_eq]
  exact List.prod_eq_zero (List.mem_map.2 ⟨axis, haxis, hempty⟩)

variable [Arith α]

/-- One round of a sample, by its indices. -/
theorem sampleFrom_succ (axes : List (Axis α)) (fuel missing : Nat) (seen : List (Params α))
    (state : σ) :
    sampleFrom draw axes (fuel + 1) (missing + 1) seen state =
      let drawn := drawIndices draw axes state
      let combination := combinationAt axes drawn.1
      if hasList combination then ⟨[], some .wrongType⟩
      else if seen.any (sameCombination combination) then
        sampleFrom draw axes fuel (missing + 1) seen drawn.2
      else
        let rest := sampleFrom draw axes fuel missing (combination :: seen) drawn.2
        ⟨combination :: rest.combinations, rest.fault⟩ := by
  rw [sampleFrom, drawValues_eq]
  rfl

/-- Index lists of a sample: each combination can be told apart from those that were seen before,
and from the earlier ones of the sample. -/
structure Fresh (axes : List (Axis α)) (seen : List (Params α)) (sample : List (List Nat)) :
    Prop where
  isIndex : ∀ indices ∈ sample, IsIndex axes indices
  plain : ∀ indices ∈ sample, hasList (combinationAt axes indices) = false
  unseen : ∀ indices ∈ sample, ∀ other ∈ seen,
    sameCombination (combinationAt axes indices) other = false
  apart : sample.Pairwise fun earlier later =>
    sameCombination (combinationAt axes later) (combinationAt axes earlier) = false

/-- A sample that comes to its end holds as many fresh combinations as were asked for. -/
theorem sampleFrom_fresh {axes : List (Axis α)} (hfull : ∀ axis ∈ axes, 0 < axis.2.length)
    {fuel missing : Nat} {seen : List (Params α)} {state : σ}
    (hends : (sampleFrom draw axes fuel missing seen state).fault = none) :
    ∃ sample : List (List Nat), sample.length = missing ∧ Fresh axes seen sample ∧
      (sampleFrom draw axes fuel missing seen state).combinations =
        sample.map (combinationAt axes) := by
  induction fuel generalizing missing seen state with
  | zero =>
      cases missing with
      | zero => exact ⟨[], rfl, ⟨nofun, nofun, nofun, .nil⟩, rfl⟩
      | succ missing => exact nomatch hends
  | succ fuel ih =>
      cases missing with
      | zero => exact ⟨[], rfl, ⟨nofun, nofun, nofun, .nil⟩, rfl⟩
      | succ missing =>
          rw [sampleFrom_succ] at hends ⊢
          dsimp only at hends ⊢
          have hdrawn := isIndex_drawIndices draw hfull state
          generalize drawIndices draw axes state = drawn at hends hdrawn ⊢
          split at hends
          · exact nomatch hends
          · next hplain =>
              rw [if_neg hplain]
              split at hends
              · next hseen =>
                  rw [if_pos hseen]
                  exact ih hends
              · next hunseen =>
                  rw [if_neg hunseen]
                  obtain ⟨sample, hlength, hfresh, hcombinations⟩ := ih hends
                  refine ⟨drawn.1 :: sample, congrArg _ hlength, ⟨?_, ?_, ?_, ?_⟩,
                    congrArg (_ :: ·) hcombinations⟩
                  · exact List.forall_mem_cons.2 ⟨hdrawn, hfresh.isIndex⟩
                  · exact List.forall_mem_cons.2 ⟨Bool.eq_false_iff.2 hplain, hfresh.plain⟩
                  · refine List.forall_mem_cons.2 ⟨?_, fun indices hindices other hother =>
                      hfresh.unseen indices hindices other (List.mem_cons_of_mem _ hother)⟩
                    simpa using hunseen
                  · exact List.pairwise_cons.2 ⟨fun indices hindices =>
                      hfresh.unseen indices hindices _ List.mem_cons_self, hfresh.apart⟩

end Draws

/-! ## Equal values -/

section Equality

variable [Arith α]

/-- A value that is no list cannot be told apart from itself. -/
theorem sameScalar_self (hordered : Ordered α) {x : Scalar α} (hx : ∀ items, x ≠ .list items) :
    sameScalar x x = true := by
  cases x with
  | int value => simp [sameScalar, Scalar.number?, Number.ofScalar, Except.toOption, Number.same]
  | real value =>
      simp only [sameScalar, Scalar.number?, Number.ofScalar, Except.toOption, Bool.or_eq_true,
        Bool.and_self]
      cases hnan : Arith.isNaN value with
      | true => exact .inr rfl
      | false =>
          have hself := hordered.atMost_total value value hnan hnan
          rw [or_self] at hself
          exact .inl (by rw [hordered.same_eq, hself]; rfl)
  | flag value => simp [sameScalar, Scalar.number?, Number.ofScalar, Except.toOption, Number.same]
  | text value => simp [sameScalar, Scalar.number?, Number.ofScalar, Except.toOption]
  | missing => rfl
  | list items => exact absurd rfl (hx items)

theorem sameCombination_self (hordered : Ordered α) {combination : Params α}
    (hplain : hasList combination = false) :
    sameCombination combination combination = true := by
  induction combination with
  | nil => rfl
  | cons entry rest ih =>
      rw [hasList, List.any_cons, Bool.or_eq_false_iff] at hplain
      obtain ⟨hfirst, hrest⟩ := hplain
      rw [sameCombination, List.zip_cons_cons, List.all_cons, Bool.and_eq_true]
      refine ⟨sameScalar_self hordered fun items hitems => ?_, ih hrest⟩
      rw [hitems] at hfirst
      exact nomatch hfirst

/-- Values that are not equal, whichever of them comes first. -/
def Differ (x y : Scalar α) : Prop := x.equal y = false ∧ y.equal x = false

/-- Two combinations give unequal values to some name. -/
def Apart (first second : Params α) : Prop :=
  ∃ name x y, first.get? name = some x ∧ second.get? name = some y ∧ Differ x y

variable {axes : List (Axis α)} {indices others : List Nat}

theorem apart_of_ne (hnames : (axes.map (·.1)).Nodup)
    (hvalues : ∀ axis ∈ axes, axis.2.Pairwise Differ) (hindices : IsIndex axes indices)
    (hothers : IsIndex axes others) (hne : indices ≠ others) :
    Apart (combinationAt axes indices) (combinationAt axes others) := by
  have hdistinct {indices : List Nat} (hindices : IsIndex axes indices) :
      (combinationAt axes indices).Distinct := by
    rw [Record.Distinct, (assigns_combinationAt hnames hindices).names_eq]
    exact hnames
  obtain ⟨place, name, x, y, hx, hy, hdiffer⟩ :=
    exists_place (fun _ _ => And.symm) hnames hvalues hindices hothers hne
  exact ⟨name, x, y, Record.get?_of_mem (hdistinct hindices) (List.mem_of_getElem? hx),
    Record.get?_of_mem (hdistinct hothers) (List.mem_of_getElem? hy), hdiffer⟩

end Equality

/-! ## Enumerations -/

section Enumerations

variable [Arith α] {σ : Type} {axes : List (Axis α)} {cap : Int}

/-- The enumeration of some axes where a sample makes at most `fuel` draws. -/
def enumerateWithin (fuel : Nat) (draw : RandomSource σ) (seed : σ) (axes : List (Axis α))
    (cap : Int) : Enumeration α :=
  if (size axes : Int) ≤ cap then ⟨allCombinations axes, none⟩
  else sampleFrom draw axes fuel cap.toNat [] seed

theorem enumerate_eq_within (draw : RandomSource σ) (seed : σ) (axes : List (Axis α))
    (cap : Int) :
    enumerate draw seed axes cap = enumerateWithin (drawBound cap.toNat) draw seed axes cap := rfl

/-- An enumeration goes through the combinations at distinct index lists, as many as there are or as
the cap allows. -/
theorem enumerateWithin_indices (hordered : Ordered α) {draw : RandomSource σ} {seed : σ}
    {fuel : Nat} (hcap : 0 ≤ cap)
    (hends : (enumerateWithin fuel draw seed axes cap).fault = none) :
    ∃ visited : List (List Nat), (visited.length : Int) = min (size axes : Int) cap ∧
      visited.Nodup ∧ (∀ indices ∈ visited, IsIndex axes indices) ∧
      ((size axes : Int) ≤ cap → visited = indexLists axes) ∧
      (enumerateWithin fuel draw seed axes cap).combinations =
        visited.map (combinationAt axes) := by
  rw [enumerateWithin] at hends ⊢
  by_cases hfits : (size axes : Int) ≤ cap
  · rw [if_pos hfits]
    refine ⟨indexLists axes, ?_, ?_, fun _ => mem_indexLists.1, fun _ => rfl,
      allCombinations_eq axes⟩
    · rw [length_indexLists, ← size_eq, min_eq_left hfits]
    · exact (indexLists_sorted axes).imp fun hlt => ne_of_lt hlt
  · rw [if_neg hfits] at hends ⊢
    have hsize : size axes ≠ 0 := by omega
    have hfull := length_pos_of_size hsize
    obtain ⟨sample, hlength, hfresh, hcombinations⟩ := sampleFrom_fresh draw hfull hends
    refine ⟨sample, by omega, ?_, hfresh.isIndex, fun hle => absurd hle hfits, hcombinations⟩
    refine hfresh.apart.imp_of_mem fun {earlier later} _ hlater hapart heq => ?_
    rw [heq, sameCombination_self hordered (hfresh.plain later hlater)] at hapart
    exact nomatch hapart

/-- What an enumeration of some axes visits under a cap. -/
structure Enumerates (axes : List (Axis α)) (cap : Int) (visited : List (Params α)) : Prop where
  /-- As many as there are combinations, or as the cap allows. -/
  length_eq : (visited.length : Int) = min (lengthProduct axes : Int) cap
  apart : visited.Pairwise Apart
  assigns : ∀ combination ∈ visited, Assigns axes combination
  /-- If the cap allows it, all combinations in the lexicographic order of their indices. -/
  lexicographic : (lengthProduct axes : Int) ≤ cap →
    ∃ indices : List (List Nat), indices.Pairwise (· < ·) ∧
      (∀ list, list ∈ indices ↔ IsIndex axes list) ∧ visited = indices.map (combinationAt axes)

/-- A sample that comes to its end would not change if more draws were allowed. -/
theorem sampleFrom_of_le {draw : RandomSource σ} {fuel more missing : Nat} {seen : List (Params α)}
    {state : σ} (hmore : fuel ≤ more)
    (hends : (sampleFrom draw axes fuel missing seen state).fault = none) :
    sampleFrom draw axes more missing seen state =
      sampleFrom draw axes fuel missing seen state := by
  induction fuel generalizing more missing seen state with
  | zero =>
      cases missing with
      | zero => cases more <;> rfl
      | succ missing => exact nomatch hends
  | succ fuel ih =>
      obtain ⟨more, rfl⟩ := Nat.exists_eq_add_one_of_ne_zero
        (Nat.ne_of_gt (Nat.lt_of_lt_of_le (Nat.succ_pos fuel) hmore))
      have hmore := Nat.le_of_succ_le_succ hmore
      cases missing with
      | zero => rfl
      | succ missing =>
          rw [sampleFrom_succ] at hends
          rw [sampleFrom_succ, sampleFrom_succ]
          dsimp only at hends ⊢
          split at hends
          · exact nomatch hends
          · next hplain =>
              rw [if_neg hplain, if_neg hplain]
              split at hends
              · next hseen => rw [if_pos hseen, if_pos hseen, ih hmore hends]
              · next hunseen => rw [if_neg hunseen, if_neg hunseen, ih hmore hends]

/-- An enumeration that comes to its end would not change if more draws were allowed. -/
theorem enumerateWithin_of_le {draw : RandomSource σ} {seed : σ} {fuel more : Nat}
    (hmore : fuel ≤ more) (hends : (enumerateWithin fuel draw seed axes cap).fault = none) :
    enumerateWithin more draw seed axes cap = enumerateWithin fuel draw seed axes cap := by
  rw [enumerateWithin] at hends ⊢
  rw [enumerateWithin]
  split at hends
  · next hfits => rw [if_pos hfits, if_pos hfits]
  · next hfits => rw [if_neg hfits, if_neg hfits, sampleFrom_of_le hmore hends]

/-- An enumeration that comes to its end is complete and repeats nothing: it visits as many
combinations as there are, or as the cap allows, no two of them alike, and if the cap allows it all
of them in lexicographic order.  More draws than it took would not change it. -/
theorem enumeration_is_complete (hordered : Ordered α) (draw : RandomSource σ) (seed : σ)
    (fuel : Nat) (hnames : (axes.map (·.1)).Nodup)
    (hvalues : ∀ axis ∈ axes, axis.2.Pairwise Differ) (hcap : 0 ≤ cap)
    (hends : (enumerateWithin fuel draw seed axes cap).fault = none) :
    (∀ more, fuel ≤ more → enumerateWithin more draw seed axes cap =
        enumerateWithin fuel draw seed axes cap) ∧
      Enumerates axes cap (enumerateWithin fuel draw seed axes cap).combinations := by
  refine ⟨fun more hmore => enumerateWithin_of_le hmore hends, ?_⟩
  obtain ⟨visited, hlength, hnodup, hindices, hall, hcombinations⟩ :=
    enumerateWithin_indices hordered hcap hends
  rw [hcombinations]
  rw [size_eq] at hlength hall
  refine ⟨by rwa [List.length_map], ?_, ?_, fun hfits => ?_⟩
  · rw [List.pairwise_map]
    exact hnodup.imp_of_mem fun hfirst hsecond hne =>
      apart_of_ne hnames hvalues (hindices _ hfirst) (hindices _ hsecond) hne
  · exact List.forall_mem_map.2 fun indices hmem =>
      assigns_combinationAt hnames (hindices indices hmem)
  · rw [hall hfits]
    exact ⟨indexLists axes, indexLists_sorted axes, fun _ => mem_indexLists, rfl⟩

end Enumerations

/-- Three integers and two halves. -/
def smallAxes : List (Axis Exact) :=
  [("length", [.int 1, .int 2, .int 3]), ("width", [.real (.finite (1 / 2)), .real (.finite 1)])]

theorem enumeration_is_complete_sampled :
    Ordered Exact ∧ (smallAxes.map (·.1)).Nodup ∧
      (∀ axis ∈ smallAxes, axis.2.Pairwise Differ) ∧
      (enumerateWithin 20 Random.draw (Random.start 7) smallAxes 4).fault = none ∧
      Enumerates smallAxes 4
        (enumerateWithin 20 Random.draw (Random.start 7) smallAxes 4).combinations ∧
      Enumerates smallAxes 6
        (enumerateWithin 0 Random.draw (Random.start 7) smallAxes 6).combinations := by
  have hnames : (smallAxes.map (·.1)).Nodup := by decide +kernel
  have hvalues : ∀ axis ∈ smallAxes, axis.2.Pairwise Differ := by
    unfold Differ
    decide +kernel
  have hends : (enumerateWithin 20 Random.draw (Random.start 7) smallAxes 4).fault = none := by
    decide +kernel
  exact ⟨Exact.ordered, hnames, hvalues, hends,
    (enumeration_is_complete Exact.ordered _ _ 20 hnames hvalues (by decide) hends).2,
    (enumeration_is_complete Exact.ordered _ _ 0 hnames hvalues (by decide) rfl).2⟩

end Backtest.Search
