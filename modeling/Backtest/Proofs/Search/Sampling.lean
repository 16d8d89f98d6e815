import Backtest.Proofs.Search.GridSize

/-!
# When a sample can be completed

A sample draws until it has as many combinations as its cap that can be told apart.  Where the axes
have distinct names and no axis repeats a value, there are as many of these as there are index
lists, and a source that draws every index list sooner or later completes every sample
(`sampling_ends`).  In exact arithmetic no range repeats a value if its step is more than a unit in
the eighth place (`Bounded.distinguished`).

Smaller steps may round to the value that they started from.  Then an axis is longer than it has
values, and a sample of fewer combinations than the grid counts may never be complete
(`tiny_steps_never_end`).
-/

namespace Backtest.Search

open Outcome

variable {α : Type} [Arith α]

/-! ## Combinations that can be told apart -/

/-- Two values can be told apart, whichever of them comes first. -/
def Distinguished (x y : Scalar α) : Prop := sameScalar x y = false ∧ sameScalar y x = false

section Keys

variable {axes : List (Axis α)} {indices others : List Nat}

/-- Axes whose combinations can be told apart: the names are distinct, and no axis repeats a
value. -/
structure Distinguishing (axes : List (Axis α)) : Prop where
  names : (axes.map (·.1)).Nodup
  values : ∀ axis ∈ axes, axis.2.Pairwise Distinguished

theorem Distinguishing.sameCombination_of_ne (haxes : Distinguishing axes)
    (hindices : IsIndex axes indices) (hothers : IsIndex axes others) (hne : indices ≠ others) :
    sameCombination (combinationAt axes indices) (combinationAt axes others) = false := by
  obtain ⟨place, name, x, y, hx, hy, hapart⟩ :=
    exists_place (fun _ _ => And.symm) haxes.names haxes.values hindices hothers hne
  have hzip : ((combinationAt axes indices).zip (combinationAt axes others))[place]? =
      some ((name, x), (name, y)) := List.getElem?_zip_eq_some.2 ⟨hx, hy⟩
  rw [sameCombination, List.all_eq_false]
  refine ⟨_, List.mem_of_getElem? hzip, ?_⟩
  rw [hapart.1]
  exact Bool.false_ne_true

end Keys

/-! ## Draws one after the other -/

section Draws

variable {σ : Type} (draw : RandomSource σ) (axes : List (Axis α))

/-- The index list of a draw, counted from zero. -/
def drawnAt (state : σ) : Nat → List Nat
  | 0 => (drawIndices draw axes state).1
  | count + 1 => drawnAt (drawIndices draw axes state).2 count

/-- A source draws every index list sooner or later. -/
def Covers (seed : σ) : Prop :=
  ∀ indices, IsIndex axes indices → ∃ count, drawnAt draw axes seed count = indices

variable {draw axes}

/-- A sample that is not complete after some draws has met fewer index lists than it was to hold,
those that were seen before included. -/
theorem exists_met (haxes : Distinguishing axes) (hfull : ∀ axis ∈ axes, 0 < axis.2.length)
    (hplain : ∀ indices, IsIndex axes indices → hasList (combinationAt axes indices) = false)
    {fuel missing : Nat} {seen : List (List Nat)} {state : σ}
    (hseen : ∀ indices ∈ seen, IsIndex axes indices)
    (hfault : (sampleFrom draw axes fuel missing (seen.map (combinationAt axes)) state).fault ≠
      none) :
    ∃ met : List (List Nat), met.length < seen.length + missing ∧ seen ⊆ met ∧
      ∀ count < fuel, drawnAt draw axes state count ∈ met := by
  induction fuel generalizing missing seen state with
  | zero =>
      cases missing with
      | zero => exact absurd rfl hfault
      | succ missing =>
          exact ⟨seen, Nat.lt_add_of_pos_right (Nat.succ_pos missing), List.Subset.refl _, nofun⟩
  | succ fuel ih =>
      cases missing with
      | zero => exact absurd rfl hfault
      | succ missing =>
          have hdrawn := isIndex_drawIndices draw hfull state
          rw [sampleFrom_succ] at hfault
          dsimp only at hfault
          rw [if_neg (by rw [hplain _ hdrawn]; exact Bool.false_ne_true)] at hfault
          split at hfault
          · next hany =>
              -- The draw has been met before, for no other index list gives its combination.
              obtain ⟨_, hentry, hsame⟩ := List.any_eq_true.1 hany
              obtain ⟨other, hother, rfl⟩ := List.mem_map.1 hentry
              have heq : (drawIndices draw axes state).1 = other := by
                by_contra hne
                rw [haxes.sameCombination_of_ne hdrawn (hseen other hother) hne] at hsame
                exact nomatch hsame
              obtain ⟨met, hlength, hsubset, hdraws⟩ := ih hseen hfault
              refine ⟨met, hlength, hsubset, fun count hcount => ?_⟩
              cases count with
              | zero =>
                  rw [drawnAt, heq]
                  exact hsubset hother
              | succ count => exact hdraws count (Nat.lt_of_succ_lt_succ hcount)
          · have hnext : ∀ indices ∈ (drawIndices draw axes state).1 :: seen,
                IsIndex axes indices := List.forall_mem_cons.2 ⟨hdrawn, hseen⟩
            obtain ⟨met, hlength, hsubset, hdraws⟩ := ih hnext hfault
            obtain ⟨hfirst, hrest⟩ := List.cons_subset.1 hsubset
            refine ⟨met, by rw [List.length_cons] at hlength; omega, hrest, fun count hcount => ?_⟩
            cases count with
            | zero => exact hfirst
            | succ count => exact hdraws count (Nat.lt_of_succ_lt_succ hcount)

omit [Arith α] in
/-- A covering source has drawn all index lists after some draws. -/
theorem Covers.exists_bound {seed : σ} (hcovers : Covers draw axes seed) :
    ∃ bound, ∀ indices, IsIndex axes indices →
      ∃ count < bound, drawnAt draw axes seed count = indices := by
  choose! count hcount using hcovers
  refine ⟨((indexLists axes).map count).sum + 1, fun indices hindices => ?_⟩
  have hmem := List.mem_map_of_mem (f := count) (mem_indexLists.2 hindices)
  exact ⟨count indices, Nat.lt_succ_of_le (List.le_sum_of_mem hmem), hcount indices hindices⟩

/-- With a covering source, a sample is complete after some draws, if it holds at most as many
combinations as there are index lists. -/
theorem Covers.exists_sample (haxes : Distinguishing axes)
    (hfull : ∀ axis ∈ axes, 0 < axis.2.length)
    (hplain : ∀ indices, IsIndex axes indices → hasList (combinationAt axes indices) = false)
    {seed : σ} (hcovers : Covers draw axes seed) {missing : Nat}
    (hmissing : missing ≤ lengthProduct axes) :
    ∃ fuel, (sampleFrom draw axes fuel missing [] seed).fault = none := by
  obtain ⟨bound, hbound⟩ := hcovers.exists_bound
  refine ⟨bound, ?_⟩
  by_contra hfault
  -- Otherwise the list of what was met would hold all index lists, and be shorter.
  have hseen : ∀ indices ∈ ([] : List (List Nat)), IsIndex axes indices := nofun
  obtain ⟨met, hlength, _, hmet⟩ := exists_met haxes hfull hplain hseen hfault
  have hall : indexLists axes ⊆ met := by
    intro indices hindices
    obtain ⟨count, hcount, hdrawn⟩ := hbound indices (mem_indexLists.1 hindices)
    exact hdrawn ▸ hmet count hcount
  have hnodup : (indexLists axes).Nodup := (indexLists_sorted axes).imp ne_of_lt
  have hle := (List.subperm_of_subset hnodup hall).length_le
  rw [length_indexLists] at hle
  rw [List.length_nil] at hlength
  omega

end Draws

/-! ## Axes of ranges -/

section Axes

/-- Values that are integers or numbers. -/
def Numeric (items : List (Scalar α)) : Prop := ∀ item ∈ items, ∃ x : Number α, item = x.toScalar

theorem Progression.exists_number_of_listed {values : Progression α} {value : Number α}
    {item : Scalar α} (hitem : values.listed value = .ok item) :
    ∃ x : Number α, item = x.toScalar := by
  unfold listed at hitem
  dsimp only at hitem
  split at hitem
  · obtain ⟨_, _, hitem⟩ := bind_eq_ok.1 hitem
    split at hitem
    · obtain ⟨n, _, hitem⟩ := bind_eq_ok.1 hitem
      injection hitem with hitem
      exact ⟨.int n, hitem.symm⟩
    · injection hitem with hitem
      exact ⟨_, hitem.symm⟩
  · injection hitem with hitem
    exact ⟨_, hitem.symm⟩

theorem Progression.numeric_of_valuesFrom {values : Progression α} {fuel count : Nat}
    {items : List (Scalar α)} (hitems : values.valuesFrom fuel count = .ok items) :
    Numeric items := by
  induction fuel generalizing count items with
  | zero => exact nomatch hitems
  | succ fuel ih =>
      obtain ⟨_, _, hitems⟩ := bind_eq_ok.1 hitems
      obtain ⟨beyond, _, hitems⟩ := bind_eq_ok.1 hitems
      cases beyond with
      | true =>
          injection hitems with hitems
          rw [← hitems]
          exact nofun
      | false =>
          obtain ⟨first, hfirst, hitems⟩ := bind_eq_ok.1 hitems
          obtain ⟨rest, hrest, hitems⟩ := bind_eq_ok.1 hitems
          injection hitems with hitems
          rw [← hitems]
          exact List.forall_mem_cons.2 ⟨exists_number_of_listed hfirst, ih hrest⟩

theorem numeric_of_expand {range : Range α} {items : List (Scalar α)}
    (hitems : expand range = .ok items) : Numeric items := by
  obtain ⟨above, _, hitems⟩ := bind_eq_ok.1 hitems
  cases above with
  | true => exact nomatch hitems
  | false =>
      obtain ⟨values, _, hitems⟩ := bind_eq_ok.1 hitems
      exact Progression.numeric_of_valuesFrom hitems

theorem numeric_of_axesOf {ranges : List (Range α)} {axes : List (Axis α)}
    (haxes : axesOf ranges = .ok axes) : ∀ axis ∈ axes, Numeric axis.2 := by
  have hranges : List.Forall₂ (fun (axis : Axis α) (_ : Range α) => Numeric axis.2 ∧ True) axes
      (ranges.filter (·.enabled)) :=
    ((axesOf_eq_ok.1 haxes).imp fun _ _ haxis => ⟨numeric_of_expand haxis.2, trivial⟩).flip
  exact ((List.forall₂_and_left _ _).1 hranges).1

omit [Arith α] in
/-- A combination of numbers has no lists. -/
theorem hasList_combinationAt {axes : List (Axis α)} {indices : List Nat}
    (hnames : (axes.map (·.1)).Nodup) (hnumeric : ∀ axis ∈ axes, Numeric axis.2)
    (hindices : IsIndex axes indices) : hasList (combinationAt axes indices) = false := by
  induction hindices with
  | nil => rfl
  | @cons index axis indices rest hindex hrest ih =>
      obtain ⟨hfirst, hnumeric⟩ := List.forall_mem_cons.1 hnumeric
      obtain ⟨x, hx⟩ := hfirst _ (List.getElem_mem hindex)
      have hothers := ih (List.nodup_cons.1 hnames).2 hnumeric
      rw [combinationAt_cons hnames hrest hindex, hx]
      rw [hasList, List.any_cons, Bool.or_eq_false_iff]
      exact ⟨by cases x <;> rfl, hothers⟩

end Axes

/-! ## Ranges that repeat no value -/

theorem sameScalar_of_ne {value other : Scalar Exact} {a b : Rat} (hvalue : value.IsRational a)
    (hother : other.IsRational b) (hne : a ≠ b) : sameScalar value other = false := by
  obtain ⟨x, hx, hfirst⟩ := hvalue
  obtain ⟨y, hy, hsecond⟩ := hother
  have hnumber : value.number? = some x := congrArg Except.toOption hx
  have hnumbers : other.number? = some y := congrArg Except.toOption hy
  unfold sameScalar
  rw [hnumber, hnumbers]
  have hsame := Number.same_eq hfirst hsecond
  rw [decide_eq_false hne] at hsame
  cases x with
  | int m => exact hsame
  | real first =>
      cases y with
      | int n => exact hsame
      | real second =>
          injection hfirst with hfirst
          have hdefined : Arith.isNaN first = false := by
            rw [hfirst]
            rfl
          change (Arith.same first second || (Arith.isNaN first && Arith.isNaN second)) = false
          rw [hdefined, Bool.false_and, Bool.or_false]
          exact hsame

/-- In exact arithmetic, a range with steps of more than a unit in the eighth place repeats no
value. -/
theorem Bounded.distinguished {range : Range Exact} {least greatest : Rat}
    (hbounded : Bounded range least greatest) (hstep : 1 / 10 ^ 8 < gap range)
    {items : List (Scalar Exact)} (hitems : expand range = .ok items) :
    items.Pairwise Distinguished := by
  obtain ⟨listed, hlisted, hafter⟩ := hbounded.exists_expand
  obtain rfl : listed = items := Except.ok.inj (hlisted.symm.trans hitems)
  rw [List.pairwise_iff_getElem]
  intro i j hi hj hij
  have hlength := hafter.length_eq
  have hvalue {k : Nat} (hk : k < listed.length) :
      Progression.IsAfter least (gap range) listed[k] k := by
    have hget := hafter.get hk (hlength ▸ hk)
    simpa using hget
  have hcast : (i : Rat) + 1 ≤ j := by exact_mod_cast hij
  have hlt : Exact.roundTo 8 (least + i * gap range) < Exact.roundTo 8 (least + j * gap range) :=
    Exact.roundTo_lt (by nlinarith)
  exact ⟨sameScalar_of_ne (hvalue hi) (hvalue hj) hlt.ne,
    sameScalar_of_ne (hvalue hj) (hvalue hi) hlt.ne'⟩

/-! ## Samples of ranges -/

/-- Where the enabled ranges have distinct names and repeat no value, there are as many combinations
that can be told apart as the grid has, and a source that draws all of them sooner or later completes
every sample. -/
theorem sampling_ends {ranges : List (Range α)} {axes : List (Axis α)}
    (haxes : axesOf ranges = .ok axes)
    (hnames : ((ranges.filter (·.enabled)).map (·.name)).Nodup)
    (hvalues : ∀ axis ∈ axes, axis.2.Pairwise Distinguished) :
    (∃ keys : List (Params α), keys.length = size axes ∧
        keys.Pairwise (fun first second => sameCombination first second = false) ∧
        ∀ key ∈ keys, ∃ indices, IsIndex axes indices ∧ key = combinationAt axes indices) ∧
      ∀ {σ : Type} (draw : RandomSource σ) (seed : σ) (cap : Int), Covers draw axes seed →
        ∃ fuel, (enumerateWithin fuel draw seed axes cap).fault = none := by
  rw [← names_of_axesOf haxes] at hnames
  have hdistinguishing : Distinguishing axes := ⟨hnames, hvalues⟩
  refine ⟨⟨(indexLists axes).map (combinationAt axes), ?_, ?_, ?_⟩, ?_⟩
  · rw [List.length_map, length_indexLists, size_eq]
  · rw [List.pairwise_map]
    refine (indexLists_sorted axes).imp_of_mem fun hfirst hsecond hlt => ?_
    exact hdistinguishing.sameCombination_of_ne (mem_indexLists.1 hfirst)
      (mem_indexLists.1 hsecond) (ne_of_lt hlt)
  · exact List.forall_mem_map.2 fun indices hindices => ⟨indices, mem_indexLists.1 hindices, rfl⟩
  · intro σ draw seed cap hcovers
    unfold enumerateWithin
    by_cases hfits : (size axes : Int) ≤ cap
    · exact ⟨0, by rw [if_pos hfits]⟩
    · simp only [if_neg hfits]
      cases hcap : cap.toNat with
      | zero => exact ⟨0, rfl⟩
      | succ missing =>
          have hsize : size axes ≠ 0 := by omega
          have hmissing : missing + 1 ≤ lengthProduct axes := by
            rw [← size_eq]
            omega
          exact hcovers.exists_sample hdistinguishing (length_pos_of_size hsize)
            (fun _ => hasList_combinationAt hnames (numeric_of_axesOf haxes)) hmissing

/-- Two values of each of two parameters. -/
def squareRanges : List (Range Exact) :=
  [⟨"length", .int 3, .int 4, .int 1, "int", "", true⟩,
    ⟨"width", .real (.finite 0), .real (.finite (1 / 2)), .real (.finite (1 / 2)), "float", "",
      true⟩]

/-- A source whose draws are by turns a count and half of it. -/
def countingSource : RandomSource Nat := fun n => (if n % 2 = 0 then n / 2 else n / 4, n + 1)

theorem covers_counting {lengths widths : List (Scalar Exact)} (hlengths : lengths.length = 2)
    (hwidths : widths.length = 2) :
    Covers countingSource [("length", lengths), ("width", widths)] 0 := by
  intro indices hindices
  obtain ⟨first, rest, hfirst, hrest, rfl⟩ := List.forall₂_cons_right_iff.1 hindices
  obtain ⟨second, last, hsecond, hlast, rfl⟩ := List.forall₂_cons_right_iff.1 hrest
  rw [List.forall₂_nil_right_iff.1 hlast]
  rw [hlengths] at hfirst
  rw [hwidths] at hsecond
  refine ⟨first + 2 * second, ?_⟩
  interval_cases first <;> interval_cases second <;>
    simp [drawnAt, drawIndices, countingSource, hlengths, hwidths]

theorem sampling_ends_square :
    ∃ axes, axesOf squareRanges = .ok axes ∧
      ((squareRanges.filter (·.enabled)).map (·.name)).Nodup ∧
      (∀ axis ∈ axes, axis.2.Pairwise Distinguished) ∧ size axes = 4 ∧
      Covers countingSource axes 0 ∧
      ∃ fuel, (enumerateWithin fuel countingSource 0 axes 3).fault = none := by
  have hlengths : Bounded squareRanges[0] 3 4 :=
    ⟨⟨_, rfl, rfl⟩, ⟨_, rfl, rfl⟩, by norm_num, _, rfl⟩
  have hwidths : Bounded squareRanges[1] 0 (1 / 2) :=
    ⟨⟨_, rfl, rfl⟩, ⟨_, rfl, rfl⟩, by norm_num, _, rfl⟩
  obtain ⟨lengths, hfirst, hlisted⟩ := hlengths.exists_expand
  obtain ⟨widths, hsecond, hlast⟩ := hwidths.exists_expand
  have htwo : lengths.length = 2 ∧ widths.length = 2 := by
    rw [hlisted.length_eq, hlast.length_eq, List.length_range, List.length_range]
    decide +kernel
  have haxes : axesOf squareRanges = .ok [("length", lengths), ("width", widths)] :=
    axesOf_eq_ok.2 (.cons ⟨rfl, hfirst⟩ (.cons ⟨rfl, hsecond⟩ .nil))
  have hnames : ((squareRanges.filter (·.enabled)).map (·.name)).Nodup := by decide +kernel
  have hvalues : ∀ axis ∈ [("length", lengths), ("width", widths)],
      axis.2.Pairwise Distinguished := by
    simp only [List.forall_mem_cons]
    exact ⟨hlengths.distinguished (by decide +kernel) hfirst,
      hwidths.distinguished (by decide +kernel) hsecond, nofun⟩
  have hcovers := covers_counting htwo.1 htwo.2
  refine ⟨_, haxes, hnames, hvalues, by simp [size, htwo], hcovers, ?_⟩
  exact (sampling_ends haxes hnames hvalues).2 countingSource 0 3 hcovers

/-! ## Ranges that repeat their only value -/

section Alike

variable {axes : List (Axis α)}

/-- Axes that repeat one value each have combinations that cannot be told apart. -/
theorem sameCombination_of_alike (hnames : (axes.map (·.1)).Nodup)
    (halike : ∀ axis ∈ axes, ∀ x ∈ axis.2, ∀ y ∈ axis.2, sameScalar x y = true)
    {indices others : List Nat} (hindices : IsIndex axes indices) (hothers : IsIndex axes others) :
    sameCombination (combinationAt axes indices) (combinationAt axes others) = true := by
  induction hindices generalizing others with
  | nil =>
      rw [List.forall₂_nil_right_iff.1 hothers]
      rfl
  | @cons index axis indices rest hindex hrest ih =>
      obtain ⟨other, later, hother, hlater, rfl⟩ := List.forall₂_cons_right_iff.1 hothers
      obtain ⟨hfirst, halike⟩ := List.forall_mem_cons.1 halike
      rw [combinationAt_cons hnames hrest hindex, combinationAt_cons hnames hlater hother,
        sameCombination, List.zip_cons_cons, List.all_cons, Bool.and_eq_true]
      exact ⟨hfirst _ (List.getElem_mem hindex) _ (List.getElem_mem hother),
        ih (List.nodup_cons.1 hnames).2 halike hlater⟩

/-- Where no two combinations can be told apart, a sample of two or more is never complete. -/
theorem sample_never_ends {σ : Type} {draw : RandomSource σ} {seed : σ} {fuel : Nat} {cap : Int}
    (hsame : ∀ first second, IsIndex axes first → IsIndex axes second →
      sameCombination (combinationAt axes first) (combinationAt axes second) = true)
    (hcap : 1 < cap) (hsampled : cap < size axes) :
    (enumerateWithin fuel draw seed axes cap).fault ≠ none := by
  intro hends
  rw [enumerateWithin, if_neg hsampled.not_ge] at hends
  have hsize : size axes ≠ 0 := by omega
  obtain ⟨sample, hlength, hfresh, _⟩ :=
    sampleFrom_fresh draw (length_pos_of_size hsize) hends
  obtain ⟨first, others, rfl⟩ := List.exists_cons_of_length_pos (l := sample) (by omega)
  rw [List.length_cons] at hlength
  obtain ⟨second, rest, rfl⟩ := List.exists_cons_of_length_pos (l := others) (by omega)
  obtain ⟨hfirst, hindices⟩ := List.forall_mem_cons.1 hfresh.isIndex
  have hsecond := hindices second List.mem_cons_self
  have hapart := (List.pairwise_cons.1 hfresh.apart).1 second List.mem_cons_self
  rw [hsame second first hsecond hfirst] at hapart
  exact Bool.false_ne_true hapart.symm

end Alike

/-- Three steps of less than half a unit in the eighth place. -/
def tinySteps : Range Float := ⟨"x", .real 0, .real 2e-9, .real 1e-9, "float", "", true⟩

/-- The three values of a range of tiny steps cannot be told apart, and a sample of two combinations
is never complete. -/
theorem tiny_steps_never_end :
    ∃ axes, axesOf [tinySteps] = .ok axes ∧ size axes = 3 ∧
      (∀ first second, IsIndex axes first → IsIndex axes second →
        sameCombination (combinationAt axes first) (combinationAt axes second) = true) ∧
      ∀ {σ : Type} (draw : RandomSource σ) (seed : σ) (fuel : Nat),
        (enumerateWithin fuel draw seed axes 2).fault ≠ none := by
  have halike : ((expand tinySteps).toOption.any fun items =>
      items.length == 3 && items.all fun x => items.all (sameScalar x)) = true := by
    decide +kernel
  cases hitems : expand tinySteps with
  | error fault =>
      rw [hitems] at halike
      exact nomatch halike
  | ok items =>
      rw [hitems] at halike
      obtain ⟨hlength, halike⟩ := Bool.and_eq_true_iff.1 halike
      have hsize : size [("x", items)] = 3 := by simp [size, beq_iff_eq.1 hlength]
      have hvalues : ∀ axis ∈ [("x", items)], ∀ x ∈ axis.2, ∀ y ∈ axis.2,
          sameScalar x y = true :=
        List.forall_mem_singleton.2 fun x hx => List.all_eq_true.1 (List.all_eq_true.1 halike x hx)
      have hnames : ([("x", items)].map (·.1)).Nodup := List.nodup_singleton "x"
      have hsame (first second : List Nat) (hfirst : IsIndex [("x", items)] first)
          (hsecond : IsIndex [("x", items)] second) :=
        sameCombination_of_alike hnames hvalues hfirst hsecond
      refine ⟨[("x", items)], axesOf_eq_ok.2 (.cons ⟨rfl, hitems⟩ .nil), hsize, hsame, ?_⟩
      intro σ draw seed fuel
      exact sample_never_ends hsame (by decide) (by rw [hsize]; decide)

end Backtest.Search
