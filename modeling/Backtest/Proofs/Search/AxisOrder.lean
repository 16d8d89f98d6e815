import Backtest.Proofs.Search.Enumeration
import Backtest.Proofs.Search.Ranking
import Backtest.Proofs.Search.Repeat
import Backtest.Proofs.Strategy.Lookup
import Mathlib.Data.List.Perm.Basic

/-!
# The order of the axes

A search that visits its whole grid does not depend on the order of its ranges.  In another order it
visits the same combinations as maps from names to values (`exists_same_combinations`), and a
backtest reads its parameters by name, so the search tests as many combinations and finds the same
results with trades.  Where their scores are distinct the ranking is the same too
(`optimize_reordered`).
-/

namespace Backtest.Search

open Arith

variable {α : Type}

/-! ## Combinations as maps -/

/-- The maps that give each axis one of its values, the first axis slowest. -/
def assignments : List (Axis α) → List (String → Option (Scalar α))
  | [] => [fun _ => none]
  | axis :: rest => axis.2.flatMap fun value =>
      (assignments rest).map fun others name => if axis.1 = name then some value else others name

theorem perm_flatMap_comm {β γ δ : Type} (xs : List β) (ys : List γ) (f : β → γ → List δ) :
    (xs.flatMap fun x => ys.flatMap (f x)).Perm
      (ys.flatMap fun y => xs.flatMap fun x => f x y) := by
  induction xs with
  | nil => simp
  | cons x rest ih =>
      rw [List.flatMap_cons]
      exact (ih.append_left _).trans (List.flatMap_append_perm ys _ _)

theorem assignments_perm {axes others : List (Axis α)} (hperm : axes.Perm others)
    (hnames : (axes.map (·.1)).Nodup) : (assignments axes).Perm (assignments others) := by
  induction hperm with
  | nil => exact .rfl
  | cons axis _ ih =>
      exact List.Perm.flatMap_left _ fun value _ => (ih (List.nodup_cons.1 hnames).2).map _
  | swap first second rest =>
      have hne : first.1 ≠ second.1 := by
        intro hsame
        exact (List.nodup_cons.1 hnames).1 (List.mem_map.2 ⟨first, List.mem_cons_self, hsame⟩)
      simp only [assignments, List.map_flatMap, List.map_map, Function.comp_def]
      refine (perm_flatMap_comm second.2 first.2 _).trans (.of_eq ?_)
      -- Values given to two different names can be given in either order.
      have hswap (x y other : Option (Scalar α)) (name : String) :
          (if second.1 = name then x else if first.1 = name then y else other) =
            if first.1 = name then y else if second.1 = name then x else other := by
        by_cases hfirst : first.1 = name
        · rw [if_pos hfirst, if_neg fun hsecond => hne (hfirst.trans hsecond.symm), if_pos hfirst]
        · rw [if_neg hfirst, if_neg hfirst]
      simp only [hswap]
  | trans hfirst _ ihfirst ihsecond =>
      exact (ihfirst hnames).trans (ihsecond ((hfirst.map _).nodup_iff.1 hnames))

theorem map_get?_allCombinations {axes : List (Axis α)} (hnames : (axes.map (·.1)).Nodup) :
    (allCombinations axes).map Record.get? = assignments axes := by
  induction axes with
  | nil => rfl
  | cons axis rest ih =>
      have hrest := ih (List.nodup_cons.1 hnames).2
      rw [allCombinations, List.map_map] at hrest ⊢
      rw [choices, assignments, List.map_flatMap, ← hrest]
      simp only [List.map_map]
      congr 1
      funext value
      refine List.map_congr_left fun values hvalues => funext fun name => ?_
      dsimp only [Function.comp_apply]
      rw [combinationOf_cons hnames (length_of_mem_choices hvalues), Record.get?]

/-- Two combinations that are the same as maps. -/
structure Twins (combination other : Params α) : Prop where
  distinct : combination.Distinct
  distinct_other : other.Distinct
  same : Record.Same combination other

theorem distinct_of_mem_allCombinations {axes : List (Axis α)} :
    ∀ combination ∈ allCombinations axes, Record.Distinct combination := by
  intro combination hmem
  obtain ⟨values, _, rfl⟩ := List.mem_map.1 hmem
  exact Record.distinct_ofEntries _

/-- In another order, the same combinations are visited, as maps. -/
theorem exists_same_combinations {axes others : List (Axis α)} (hperm : axes.Perm others)
    (hnames : (axes.map (·.1)).Nodup) :
    ∃ reordered, (allCombinations axes).Perm reordered ∧
      List.Forall₂ Twins reordered (allCombinations others) := by
  have hmaps : ((allCombinations axes).map Record.get?).Perm
      ((allCombinations others).map Record.get?) := by
    rw [map_get?_allCombinations hnames,
      map_get?_allCombinations ((hperm.map _).nodup_iff.1 hnames)]
    exact assignments_perm hperm hnames
  have hmapped : List.Forall₂
      (fun map (combination : Params α) => combination.Distinct ∧ combination.get? = map)
      ((allCombinations axes).map Record.get?) (allCombinations axes) := by
    rw [List.forall₂_map_left_iff, List.forall₂_same]
    exact fun combination hmem => ⟨distinct_of_mem_allCombinations combination hmem, rfl⟩
  obtain ⟨reordered, hsame, hreordered⟩ := List.perm_comp_forall₂ hmaps.symm hmapped
  refine ⟨reordered, hreordered.symm, ?_⟩
  rw [List.forall₂_map_left_iff] at hsame
  have htwins := (List.forall₂_and_left _ _).2 ⟨distinct_of_mem_allCombinations, hsame⟩
  exact htwins.flip.imp fun combination other ⟨hother, hcombination, hmap⟩ =>
    ⟨hcombination, hother, congrFun hmap⟩

variable [Arith α]

/-! ## Visits of the same combinations -/

section Visits

variable {plan : Plan α} {combination other : Params α}

theorem isOrdered_congr (kind : String) {params others : Params α}
    (hsame : Record.Same params others) : isOrdered kind params = isOrdered kind others := by
  have hperiod (names : List String) : periodUnder names params = periodUnder names others := by
    rw [periodUnder, periodUnder, funext hsame]
  rw [isOrdered, isOrdered, hperiod, hperiod, hperiod]

/-- The report that a visit of a combination adds to the results, if it adds one. -/
def tradedOf (plan : Plan α) (combination : Params α) : Option (Report α) :=
  if passes plan combination then
    (reportOf? plan combination).filter fun report => 0 < report.metrics.trades
  else none

theorem traded_eq_filterMap (plan : Plan α) (combinations : List (Params α)) :
    traded plan combinations = combinations.filterMap (tradedOf plan) := by
  rw [traded, passing, List.filter_filterMap, List.filterMap_filter]
  rfl

omit [Arith α] in
/-- Twins are the same over the fixed parameters too. -/
theorem Twins.same_given (htwins : Twins combination other) (settings : Settings α) :
    Record.Same (given settings combination) (given settings other) := by
  intro name
  rw [given, given, Record.get?_overlay htwins.distinct, Record.get?_overlay htwins.distinct_other,
    htwins.same name]

theorem Twins.order_eq (htwins : Twins combination other) :
    isOrdered plan.kind (given plan.settings combination) =
      isOrdered plan.kind (given plan.settings other) :=
  isOrdered_congr plan.kind (htwins.same_given plan.settings)

theorem Twins.passes_eq (htwins : Twins combination other) :
    passes plan combination = passes plan other := by
  rw [passes, passes, htwins.order_eq]

variable (hfixed : plan.settings.fixed.Distinct) (hdefaults : plan.target.defaults.Distinct)

include hfixed hdefaults

theorem Twins.run_alike (htwins : Twins combination other) :
    Outcome.Alike Report.SameContent
      (runTarget plan.prices plan.settings.asset (given plan.settings combination) plan.target)
      (runTarget plan.prices plan.settings.asset (given plan.settings other) plan.target) := by
  have hgiven (combination : Params α) : (given plan.settings combination).Distinct :=
    hfixed.overlay combination
  have hlaid (defaults : Params α) :
      Record.Same (defaults.overlay (given plan.settings combination))
        (defaults.overlay (given plan.settings other)) := by
    intro name
    rw [Record.get?_overlay (hgiven combination), Record.get?_overlay (hgiven other),
      htwins.same_given plan.settings name]
  cases htarget : plan.target with
  | preset kind => exact Report.ofPreset_alike _ kind _ (hlaid (Preset.defaults kind))
  | script statements defaults =>
      rw [htarget] at hdefaults
      exact Report.ofStatements_alike _ statements _ (hdefaults.overlay _) (hdefaults.overlay _)
        (hlaid defaults)

/-- Twins add the same to the results, as far as the reports tell. -/
theorem Twins.tradedOf_eq (htwins : Twins combination other) :
    (tradedOf plan combination).map Report.content = (tradedOf plan other).map Report.content := by
  have halike := htwins.run_alike hfixed hdefaults
  rw [tradedOf, tradedOf, htwins.passes_eq, reportOf?, reportOf?]
  generalize runTarget plan.prices plan.settings.asset (given plan.settings combination)
    plan.target = first at halike
  generalize runTarget plan.prices plan.settings.asset (given plan.settings other)
    plan.target = second at halike
  cases halike with
  | error fault => rfl
  | @ok report reported hcontent =>
      have hmetrics : report.metrics = reported.metrics := congrArg Content.metrics hcontent
      cases passes plan other with
      | false => rfl
      | true =>
          dsimp only [Except.toOption]
          rw [if_pos rfl, if_pos rfl, Option.filter_some, Option.filter_some, hmetrics]
          split
          · exact congrArg some hcontent
          · rfl

theorem Twins.canVisit (htwins : Twins combination other) (hvisit : CanVisit plan combination) :
    CanVisit plan other := by
  rcases hvisit with hskipped | ⟨report, hreport⟩
  · exact .inl (htwins.order_eq ▸ hskipped)
  · obtain ⟨reported, hrun, _⟩ := (htwins.run_alike hfixed hdefaults).exists_ok hreport.run
    exact .inr ⟨reported, htwins.order_eq ▸ hreport.ordered, hrun⟩

end Visits

section Grids

variable {plan : Plan α} {combinations others : List (Params α)}

theorem length_passing_eq (htwins : List.Forall₂ Twins combinations others) :
    (passing plan combinations).length = (passing plan others).length := by
  induction htwins with
  | nil => rfl
  | cons hfirst _ ih =>
      rw [passing, passing, List.filter_cons, List.filter_cons, hfirst.passes_eq]
      split
      · exact congrArg Nat.succ ih
      · exact ih

theorem map_traded_eq (hfixed : plan.settings.fixed.Distinct)
    (hdefaults : plan.target.defaults.Distinct) (htwins : List.Forall₂ Twins combinations others) :
    (traded plan combinations).map Report.content = (traded plan others).map Report.content := by
  rw [traded_eq_filterMap, traded_eq_filterMap, List.map_filterMap, List.map_filterMap]
  induction htwins with
  | nil => rfl
  | cons hfirst _ ih =>
      rw [List.filterMap_cons, List.filterMap_cons, hfirst.tradedOf_eq hfixed hdefaults, ih]

theorem canVisit_all (hfixed : plan.settings.fixed.Distinct)
    (hdefaults : plan.target.defaults.Distinct) (htwins : List.Forall₂ Twins combinations others)
    (hvisit : ∀ combination ∈ combinations, CanVisit plan combination) :
    ∀ other ∈ others, CanVisit plan other := by
  induction htwins with
  | nil => exact nofun
  | cons hfirst _ ih =>
      obtain ⟨hcombination, hrest⟩ := List.forall_mem_cons.1 hvisit
      exact List.forall_mem_cons.2
        ⟨hfirst.canVisit hfixed hdefaults hcombination, ih hrest⟩

variable {axes others : List (Axis α)}

/-- As many combinations of reordered axes pass the check of the order. -/
theorem length_passing_perm (plan : Plan α) (hperm : axes.Perm others)
    (hnames : (axes.map (·.1)).Nodup) :
    (passing plan (allCombinations others)).length =
      (passing plan (allCombinations axes)).length := by
  obtain ⟨reordered, hreordered, htwins⟩ := exists_same_combinations hperm hnames
  rw [← length_passing_eq htwins]
  exact (hreordered.filter _).length_eq.symm

/-- The reports over reordered axes tell the same, in another order. -/
theorem map_content_traded_perm (hfixed : plan.settings.fixed.Distinct)
    (hdefaults : plan.target.defaults.Distinct) (hperm : axes.Perm others)
    (hnames : (axes.map (·.1)).Nodup) :
    ((traded plan (allCombinations axes)).map Report.content).Perm
      ((traded plan (allCombinations others)).map Report.content) := by
  obtain ⟨reordered, hreordered, htwins⟩ := exists_same_combinations hperm hnames
  rw [← map_traded_eq hfixed hdefaults htwins, traded_eq_filterMap, traded_eq_filterMap]
  exact (hreordered.filterMap _).map _

/-- Reordered axes can be visited as well. -/
theorem canVisit_perm (hfixed : plan.settings.fixed.Distinct)
    (hdefaults : plan.target.defaults.Distinct) (hperm : axes.Perm others)
    (hnames : (axes.map (·.1)).Nodup)
    (hvisit : ∀ combination ∈ allCombinations axes, CanVisit plan combination) :
    ∀ combination ∈ allCombinations others, CanVisit plan combination := by
  obtain ⟨reordered, hreordered, htwins⟩ := exists_same_combinations hperm hnames
  exact canVisit_all hfixed hdefaults htwins fun combination hmem =>
    hvisit combination (hreordered.mem_iff.2 hmem)

end Grids

/-! ## Plans -/

/-- The axes of ranges in another order are the same axes in another order. -/
theorem axesOf_perm {ranges others : List (Range α)} {axes : List (Axis α)}
    (hperm : ranges.Perm others) (haxes : axesOf ranges = .ok axes) :
    ∃ reordered, axesOf others = .ok reordered ∧ axes.Perm reordered := by
  obtain ⟨reordered, haxes, hreordered⟩ :=
    List.perm_comp_forall₂ (hperm.filter _).symm (Outcome.mapM_eq_ok_iff.1 haxes)
  exact ⟨reordered, Outcome.mapM_eq_ok_iff.2 haxes, hreordered.symm⟩

/-- The same search with its ranges in another order. -/
def Settings.reordered (settings : Settings α) (ranges : List (Range α)) : Settings α :=
  { settings with ranges := ranges }

def Plan.reordered (plan : Plan α) (ranges : List (Range α)) (axes : List (Axis α)) : Plan α :=
  { plan with axes := axes, settings := plan.settings.reordered ranges }

theorem planOf_reordered {bars : List (Bar α)} {settings : Settings α} {plan : Plan α}
    {ranges : List (Range α)} (hperm : settings.ranges.Perm ranges)
    (hplan : planOf bars settings = .ok plan) :
    ∃ axes, plan.axes.Perm axes ∧
      planOf bars (settings.reordered ranges) = .ok (plan.reordered ranges axes) := by
  have hmetric := mem_names_of_planOf hplan
  obtain ⟨prices, axes, target, hprices, haxes, htarget, rfl⟩ := planOf_parts hplan
  obtain ⟨reordered, hreordered, haxes⟩ := axesOf_perm hperm haxes
  have htarget : targetOf (settings.reordered ranges) = .ok target := htarget
  exact ⟨reordered, haxes, planOf_of_parts hmetric hprices hreordered htarget⟩

/-- A plan visits a combination as the plan with reordered axes does. -/
theorem canVisit_reordered {plan : Plan α} {ranges : List (Range α)} {axes : List (Axis α)}
    {combination : Params α} :
    CanVisit (plan.reordered ranges axes) combination ↔ CanVisit plan combination :=
  or_congr .rfl (exists_congr fun _ =>
    ⟨fun hreport => ⟨hreport.ordered, hreport.run⟩, fun hreport => ⟨hreport.ordered, hreport.run⟩⟩)

omit [Arith α] in
theorem size_perm {axes others : List (Axis α)} (hperm : axes.Perm others) :
    size axes = size others :=
  (hperm.map _).foldl_eq' (fun x _ y _ z => by ring) 1

/-! ## Rankings -/

/-- The score of a report, from what it tells. -/
def contentScore (metric : String) (content : Content α) : α :=
  (content.metrics.get? metric).getD nan

/-- A result with its place and its score, and what its report tells. -/
def Ranked.content (ranked : Ranked α) : Nat × Content α × α :=
  (ranked.place, ranked.report.content, ranked.score)

/-- What a ranking tells depends on what its reports tell only. -/
theorem map_content_ranking (metric : String) (count : Int) (reports : List (Report α)) :
    (ranking metric count reports).map Ranked.content =
      (top count (rankBy (contentScore metric) (reports.map Report.content))).zipIdx.map
        fun entry => (entry.2 + 1, entry.1, contentScore metric entry.1) := by
  rw [rankBy_map, top_map, List.zipIdx_map, ranking, List.map_map, List.map_map]
  rfl

/-- The scores of some reports are defined and distinct. -/
structure DistinctScores (metric : String) (reports : List (Report α)) : Prop where
  defined : ∀ report ∈ reports, isNaN (scoreOf metric report) = false
  differ : reports.Pairwise fun first second =>
    same (scoreOf metric first) (scoreOf metric second) = false

theorem map_content_ranking_perm (hlaws : Ordered α) {metric : String} (count : Int)
    {reports others : List (Report α)}
    (hperm : (reports.map Report.content).Perm (others.map Report.content))
    (hscores : DistinctScores metric reports) :
    (ranking metric count others).map Ranked.content =
      (ranking metric count reports).map Ranked.content := by
  have hdefined : ∀ content ∈ reports.map Report.content,
      isNaN (contentScore metric content) = false :=
    List.forall_mem_map.2 hscores.defined
  have hdiffer : (reports.map Report.content).Pairwise fun first second =>
      same (contentScore metric first) (contentScore metric second) = false :=
    List.pairwise_map.2 hscores.differ
  rw [map_content_ranking, map_content_ranking, rankBy_perm hlaws hperm hdefined hdiffer]

/-! ## Searches -/

/-- What a search of a whole grid without a deadline finds. -/
theorem search_eq_ok_iff {κ σ : Type} {now : StateM κ α} {draw : RandomSource σ} {seed : σ}
    {bars : List (Bar α)} {settings : Settings α} {plan : Plan α} {clock : κ}
    (hplan : planOf bars settings = .ok plan) (hdeadline : settings.deadline = none)
    (hfits : (size plan.axes : Int) ≤ settings.cap) {findings : Findings α} :
    ((optimize now draw seed bars settings).run clock).1.outcome = .ok findings ↔
      (∀ combination ∈ allCombinations plan.axes, CanVisit plan combination) ∧
        ⟨ranking settings.metric settings.top (traded plan (allCombinations plan.axes)),
          (passing plan (allCombinations plan.axes)).length, false⟩ = findings := by
  have hsettings : plan.settings = settings := (planOf_eq_ok hplan).1
  rw [optimize_of_planOf hplan, enumerate, if_pos hfits,
    explore_untimed (hsettings ▸ hdeadline), pass_eq_ok_iff, hsettings,
    findingsOf_eq (mem_names_of_planOf hplan), Except.ok.injEq, eq_self, true_and]

/-- A search that visits its whole grid without a deadline finds the same with its ranges in another
order: as many combinations are tested, the reports of those that traded tell the same, and so does
the ranking if their scores are distinct. -/
theorem optimize_reordered {κ σ : Type} {now : StateM κ α} {draw : RandomSource σ} {seed : σ}
    {bars : List (Bar α)} {settings : Settings α} {ranges : List (Range α)} {plan : Plan α}
    {clock : κ} (hlaws : Ordered α) (hplan : planOf bars settings = .ok plan)
    (hdeadline : settings.deadline = none) (hfixed : settings.fixed.Distinct)
    (hnames : ((settings.ranges.filter (·.enabled)).map (·.name)).Nodup)
    (hfits : (size plan.axes : Int) ≤ settings.cap) (hperm : settings.ranges.Perm ranges) :
    let reports (plan : Plan α) :=
      traded plan (enumerate draw seed plan.axes settings.cap).combinations
    let search (settings : Settings α) :=
      ((optimize now draw seed bars settings).run clock).1.outcome
    ∃ other, planOf bars (settings.reordered ranges) = .ok other ∧
      ((reports plan).map Report.content).Perm ((reports other).map Report.content) ∧
      ((∃ findings, search settings = .ok findings) ↔
        ∃ findings, search (settings.reordered ranges) = .ok findings) ∧
      ∀ findings found, search settings = .ok findings →
        search (settings.reordered ranges) = .ok found →
          found.tested = findings.tested ∧
            (DistinctScores settings.metric (reports plan) →
              found.results.map Ranked.content = findings.results.map Ranked.content) := by
  intro reports search
  have hsettings : plan.settings = settings := (planOf_eq_ok hplan).1
  obtain ⟨axes, haxes, hother⟩ := planOf_reordered hperm hplan
  have hnames : (plan.axes.map (·.1)).Nodup := by
    rw [names_of_axesOf (planOf_eq_ok hplan).2.2]
    exact hnames
  have hothers : (axes.map (·.1)).Nodup := (haxes.map _).nodup_iff.1 hnames
  have hdefaults : plan.target.defaults.Distinct := by
    obtain ⟨_, _, target, _, _, htarget, rfl⟩ := planOf_parts hplan
    exact distinct_defaults_of_targetOf htarget
  have hfixed : plan.settings.fixed.Distinct := hsettings ▸ hfixed
  have hsize : (size axes : Int) ≤ settings.cap := size_perm haxes ▸ hfits
  have hvisited (axes : List (Axis α)) (hfits : (size axes : Int) ≤ settings.cap) :
      (enumerate draw seed axes settings.cap).combinations = allCombinations axes := by
    rw [enumerate, if_pos hfits]
  have hfirst (findings : Findings α) : search settings = .ok findings ↔ _ :=
    search_eq_ok_iff hplan hdeadline hfits
  have hsecond (findings : Findings α) : search (settings.reordered ranges) = .ok findings ↔ _ :=
    search_eq_ok_iff hother hdeadline hsize
  -- The plan of the reordered search tests and backtests as the plan does.
  have hcontent := map_content_traded_perm hfixed hdefaults haxes hnames
  have hreports : reports plan = traded plan (allCombinations plan.axes) := by
    rw [← hvisited plan.axes hfits]
  have hreordered : reports (plan.reordered ranges axes) = traded plan (allCombinations axes) := by
    rw [← hvisited axes hsize]
    rfl
  refine ⟨_, hother, ?_, ?_, ?_⟩
  · rw [hreports, hreordered]
    exact hcontent
  · constructor
    · rintro ⟨findings, hfindings⟩
      have hvisit := canVisit_perm hfixed hdefaults haxes hnames ((hfirst findings).1 hfindings).1
      exact ⟨_, (hsecond _).2 ⟨fun other hmem => canVisit_reordered.2 (hvisit other hmem), rfl⟩⟩
    · rintro ⟨findings, hfindings⟩
      have hvisit := canVisit_perm hfixed hdefaults haxes.symm hothers fun other hmem =>
        canVisit_reordered.1 (((hsecond findings).1 hfindings).1 other hmem)
      exact ⟨_, (hfirst _).2 ⟨hvisit, rfl⟩⟩
  · intro findings found hfindings hfound
    obtain ⟨_, rfl⟩ := (hfirst findings).1 hfindings
    obtain ⟨_, rfl⟩ := (hsecond found).1 hfound
    refine ⟨length_passing_perm plan haxes hnames, fun hscores => ?_⟩
    rw [hreports] at hscores
    exact map_content_ranking_perm hlaws settings.top hcontent hscores

/-- Six bars that go up and down. -/
def wavyBars : List (Bar Exact) :=
  [4, 6, 5, 8, 6, 7].zipIdx.map fun entry =>
    ⟨60000 * entry.2, .finite entry.1, .finite entry.1, .finite entry.1, .finite entry.1, .finite 0⟩

/-- A search for two simple averages, of which both periods are stepped through. -/
def gridSearch : Settings Exact :=
  { averagesSearch 0 [⟨"fastLength", .int 1, .int 2, .int 1, "int", "", true⟩,
      ⟨"slowLength", .int 3, .int 4, .int 1, "int", "", true⟩] with
    fixed := [("maType", .text "SMA")] }

/-- What a search over these bars finds, on a clock that stands still. -/
def foundInWaves (settings : Settings Exact) : Outcome (Findings Exact) :=
  ((optimize (pure zero : StateM Unit Exact) (fun state => (0, state)) 0 wavyBars settings).run
    ()).1.outcome

/-- The combinations that it visits by a plan. -/
def gridVisits (plan : Plan Exact) : Enumeration Exact :=
  enumerate (fun state => (0, state)) 0 plan.axes gridSearch.cap

/-- With the ranges the other way round the four combinations trade as well, and are ranked the
same. -/
theorem optimize_reordered_grid :
    ∃ plan findings found, planOf wavyBars gridSearch = .ok plan ∧
      DistinctScores gridSearch.metric (traded plan (gridVisits plan).combinations) ∧
      foundInWaves gridSearch = .ok findings ∧
      foundInWaves (gridSearch.reordered gridSearch.ranges.reverse) = .ok found ∧
      findings.tested = 4 ∧ found.tested = 4 ∧
      found.results.map Ranked.content = findings.results.map Ranked.content := by
  have hvisits : (planOf wavyBars gridSearch).toOption.map (fun (plan : Plan Exact) =>
      (size plan.axes, (traded plan (gridVisits plan).combinations).map
        (scoreOf gridSearch.metric))) =
        some (4, [.finite (-75 / 2), .finite (-1667 / 100), .finite (-25 / 2),
          .finite (1667 / 100)]) := by
    decide +kernel
  have htested : (foundInWaves gridSearch).toOption.map (·.tested) = some 4 := by
    decide +kernel
  obtain ⟨plan, hplan, hvisits⟩ := Option.map_eq_some_iff.1 hvisits
  obtain ⟨hsize, hscores⟩ := Prod.mk.inj hvisits
  obtain ⟨findings, hfindings, htested⟩ := Option.map_eq_some_iff.1 htested
  have hplan : planOf wavyBars gridSearch = .ok plan := Outcome.toOption_eq_some.1 hplan
  have hfound : foundInWaves gridSearch = .ok findings := Outcome.toOption_eq_some.1 hfindings
  have hdistinct :
      DistinctScores gridSearch.metric (traded plan (gridVisits plan).combinations) := by
    constructor
    · rw [← List.forall_mem_map (P := fun score : Exact => isNaN score = false), hscores]
      decide +kernel
    · rw [← List.pairwise_map (R := fun x y : Exact => same x y = false), hscores]
      decide +kernel
  have hfits : (size plan.axes : Int) ≤ gridSearch.cap := by
    rw [hsize]
    decide
  have hnames : ((gridSearch.ranges.filter (·.enabled)).map (·.name)).Nodup := by decide +kernel
  have hfixed : gridSearch.fixed.Distinct := List.nodup_singleton _
  obtain ⟨other, hother, _, hreturns, hsame⟩ := optimize_reordered Exact.ordered hplan rfl
    hfixed hnames hfits (List.reverse_perm gridSearch.ranges).symm
  obtain ⟨found, hreordered⟩ := hreturns.1 ⟨findings, hfound⟩
  obtain ⟨hcount, hranked⟩ := hsame findings found hfound hreordered
  exact ⟨plan, findings, found, hplan, hdistinct, hfound, hreordered, htested, hcount.trans htested,
    hranked hdistinct⟩

end Backtest.Search
