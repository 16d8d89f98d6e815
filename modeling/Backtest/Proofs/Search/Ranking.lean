import Backtest.Proofs.Decimal.Order
import Backtest.Proofs.Search.Tested

/-!
# Ranked results

A ranking lists the best of some entries: distinct ones, with falling scores, equal scores in the
order of the entries, and no entry left out with a score above a listed one (`StableTop`).  Sorting
by score with a stable sort and cutting the list gives such a ranking as long as every score is
defined (`stableTop_rankBy`), so the findings of a search are the stable top of the reports that
traded (`findings_rank_traded`).
-/

namespace Backtest.Search

open Arith

variable {α : Type} [Arith α]

/-! ## Rankings -/

section Rankings

variable {β : Type}

/-- An entry with its place in a list comes before another one in a ranking: its score is greater,
or the scores are equal and its place is earlier. -/
def Leads (score : β → α) (first second : β × Nat) : Prop :=
  less (score second.1) (score first.1) = true ∨
    same (score first.1) (score second.1) = true ∧ first.2 < second.2

/-- The best of some entries, with their places in the list. -/
structure StableTop (score : β → α) (count : Nat) (entries : List β) (best : List (β × Nat)) :
    Prop where
  length : best.length = min count entries.length
  listed : ∀ entry ∈ best, entries[entry.2]? = some entry.1
  distinct : (best.map (·.2)).Nodup
  sorted : best.Pairwise (Leads score)
  unbeaten : ∀ entry ∈ best, ∀ other place, entries[place]? = some other →
    place ∉ best.map (·.2) → less (score entry.1) (score other) = false

/-- The test of a ranking: the first score is at least the second one. -/
def inOrder (score : β → α) (first second : β) : Bool := atMost (score second) (score first)

/-- Entries with defined scores are sorted with their places. -/
theorem pairwise_sorted (hlaws : Ordered α) {score : β → α} {entries : List β}
    (hdefined : ∀ entry ∈ entries, isNaN (score entry) = false) :
    (entries.zipIdx.mergeSort (List.zipIdxLE (inOrder score))).Pairwise
      fun first second => List.zipIdxLE (inOrder score) first second = true := by
  -- The sort is total on the entries whose scores are defined only.
  let defined : List { entry // isNaN (score entry) = false } := entries.attachWith _ hdefined
  have hentries : entries = defined.map Subtype.val := by
    rw [List.attachWith_map_subtype_val]
  have htrans (x y z : { entry // isNaN (score entry) = false })
      (hxy : inOrder score x.1 y.1 = true) (hyz : inOrder score y.1 z.1 = true) :
      inOrder score x.1 z.1 = true :=
    hlaws.atMost_trans _ _ _ hyz hxy
  have htotal (x y : { entry // isNaN (score entry) = false }) :
      (inOrder score x.1 y.1 || inOrder score y.1 x.1) = true :=
    Bool.or_eq_true_iff.2 (hlaws.atMost_total _ _ y.2 x.2)
  have hsorted := List.pairwise_mergeSort (List.zipIdxLE_trans htrans)
    (List.zipIdxLE_total htotal) defined.zipIdx
  have hmap : entries.zipIdx.mergeSort (List.zipIdxLE (inOrder score)) =
      (defined.zipIdx.mergeSort (List.zipIdxLE fun x y => inOrder score x.1 y.1)).map
        (Prod.map Subtype.val id) := by
    rw [hentries, List.zipIdx_map]
    exact (List.map_mergeSort (f := Prod.map Subtype.val id) fun _ _ _ _ => rfl).symm
  rw [hmap, List.pairwise_map]
  exact hsorted

theorem leads_of_zipIdxLE (hlaws : Ordered α) {score : β → α} {first second : β × Nat}
    (hplaces : first.2 ≠ second.2) (hle : List.zipIdxLE (inOrder score) first second = true) :
    Leads score first second := by
  rw [List.zipIdxLE] at hle
  split at hle
  · next hdown =>
      have hdown : atMost (score second.1) (score first.1) = true := hdown
      split at hle
      · next hup =>
          have hup : atMost (score first.1) (score second.1) = true := hup
          refine .inr ⟨?_, Nat.lt_of_le_of_ne (of_decide_eq_true hle) hplaces⟩
          rw [hlaws.same_eq, hup, hdown, Bool.and_self]
      · next hup =>
          have hup : atMost (score first.1) (score second.1) = false := Bool.eq_false_iff.2 hup
          left
          rw [hlaws.less_eq, hdown, hup]
          rfl
  · exact nomatch hle

theorem inOrder_of_zipIdxLE {score : β → α} {first second : β × Nat}
    (hle : List.zipIdxLE (inOrder score) first second = true) :
    inOrder score first.1 second.1 = true := by
  rw [List.zipIdxLE] at hle
  split at hle
  · assumption
  · exact nomatch hle

/-- The first entries of a stable sort are the stable top. -/
theorem stableTop_take (hlaws : Ordered α) {score : β → α} {entries : List β} (count : Nat)
    (hdefined : ∀ entry ∈ entries, isNaN (score entry) = false) :
    StableTop score count entries
      ((entries.zipIdx.mergeSort (List.zipIdxLE (inOrder score))).take count) := by
  have hsorted := pairwise_sorted hlaws hdefined
  have hperm : (entries.zipIdx.mergeSort (List.zipIdxLE (inOrder score))).Perm entries.zipIdx :=
    List.mergeSort_perm _ _
  generalize entries.zipIdx.mergeSort (List.zipIdxLE (inOrder score)) = ranked at hsorted hperm
  have hplaces : (ranked.map (·.2)).Nodup := by
    rw [(hperm.map _).nodup_iff, List.zipIdx_map_snd]
    exact List.nodup_range'
  have hdistinct : ranked.Pairwise fun first second => first.2 ≠ second.2 :=
    List.pairwise_map.1 hplaces
  refine ⟨?_, ?_, ?_, ?_, ?_⟩
  · rw [List.length_take, hperm.length_eq, List.length_zipIdx]
  · intro entry hentry
    exact List.mem_zipIdx_iff_getElem?.1 (hperm.mem_iff.1 (List.mem_of_mem_take hentry))
  · rw [List.map_take]
    exact hplaces.sublist (List.take_sublist _ _)
  · refine (hdistinct.imp₂ ?_ hsorted).sublist (List.take_sublist _ _)
    intro first second hne hle
    exact leads_of_zipIdxLE hlaws hne hle
  · intro entry hentry other place hother hleft
    have hranked : (other, place) ∈ ranked :=
      hperm.mem_iff.2 (List.mem_zipIdx_iff_getElem?.2 hother)
    rw [← List.take_append_drop count ranked] at hsorted hranked
    have hdropped : (other, place) ∈ ranked.drop count :=
      (List.mem_append.1 hranked).resolve_left fun htaken =>
        hleft (List.mem_map_of_mem htaken)
    have hle := (List.pairwise_append.1 hsorted).2.2 entry hentry (other, place) hdropped
    have hdown : atMost (score other) (score entry.1) = true := inOrder_of_zipIdxLE hle
    rw [hlaws.less_eq, hdown, Bool.not_true, Bool.and_false]

/-- Sorting with the places and forgetting them is sorting. -/
theorem map_take_sorted (score : β → α) (count : Nat) (entries : List β) :
    ((entries.zipIdx.mergeSort (List.zipIdxLE (inOrder score))).take count).map (·.1) =
      (rankBy score entries).take count := by
  rw [List.map_take, List.mergeSort_zipIdx]
  rfl

/-- Entries with defined scores are ranked with falling scores. -/
theorem pairwise_rankBy (hlaws : Ordered α) {score : β → α} {entries : List β}
    (hdefined : ∀ entry ∈ entries, isNaN (score entry) = false) :
    (rankBy score entries).Pairwise fun first second => inOrder score first second = true := by
  have hforget : (entries.zipIdx.mergeSort (List.zipIdxLE (inOrder score))).map (·.1) =
      rankBy score entries := List.mergeSort_zipIdx
  rw [← hforget, List.pairwise_map]
  exact (pairwise_sorted hlaws hdefined).imp inOrder_of_zipIdxLE

/-- With distinct scores the order of the entries does not matter. -/
theorem rankBy_perm (hlaws : Ordered α) {score : β → α} {entries others : List β}
    (hperm : entries.Perm others) (hdefined : ∀ entry ∈ entries, isNaN (score entry) = false)
    (hdistinct : entries.Pairwise fun first second => same (score first) (score second) = false) :
    rankBy score entries = rankBy score others := by
  have hsorted (entries : List β) : (rankBy score entries).Perm entries := List.mergeSort_perm _ _
  have hranked : (rankBy score entries).Perm (rankBy score others) :=
    (hsorted entries).trans (hperm.trans (hsorted others).symm)
  have hother : ∀ entry ∈ others, isNaN (score entry) = false :=
    fun entry hentry => hdefined entry (hperm.mem_iff.2 hentry)
  have hsymmetric : Std.Symm fun first second : β => same (score first) (score second) = false :=
    ⟨fun first second hne => by rwa [hlaws.same_eq, Bool.and_comm, ← hlaws.same_eq]⟩
  refine hranked.eq_of_pairwise ?_ (pairwise_rankBy hlaws hdefined) (pairwise_rankBy hlaws hother)
  intro first second hfirst hsecond hdown hup
  have hfirst := (hsorted entries).mem_iff.1 hfirst
  have hsecond := hperm.mem_iff.2 ((hsorted others).mem_iff.1 hsecond)
  by_contra hne
  have hdiffer := hdistinct.forall hfirst hsecond hne
  have hup : atMost (score first) (score second) = true := hup
  have hdown : atMost (score second) (score first) = true := hdown
  rw [hlaws.same_eq, hup, hdown] at hdiffer
  exact nomatch hdiffer

theorem rankBy_map {γ : Type} (score : γ → α) (change : β → γ) (entries : List β) :
    rankBy score (entries.map change) = (rankBy (fun entry => score (change entry)) entries).map
      change :=
  (List.map_mergeSort (f := change) fun _ _ _ _ => rfl).symm

theorem top_map {γ : Type} (change : β → γ) (count : Int) (entries : List β) :
    top count (entries.map change) = (top count entries).map change := by
  rw [top, top, List.length_map]
  split <;> rw [List.map_take]

end Rankings

/-! ## Findings -/

theorem exists_metric {metric : String} (hmetric : metric ∈ Metrics.names) (metrics : Metrics α) :
    ∃ score, metrics.get? metric = some score := by
  have hnames : metrics.entries.map (·.1) = Metrics.names := rfl
  rw [← hnames] at hmetric
  obtain ⟨entry, hentry, rfl⟩ := List.mem_map.1 hmetric
  have hfound : (metrics.entries.find? fun other => other.1 == entry.1).isSome = true :=
    List.find?_isSome.2 ⟨entry, hentry, beq_self_eq_true _⟩
  obtain ⟨other, hother⟩ := Option.isSome_iff_exists.1 hfound
  exact ⟨other.2, by rw [Metrics.get?, hother, Option.map_some]⟩

theorem get?_eq_scoreOf {metric : String} (hmetric : metric ∈ Metrics.names) (report : Report α) :
    report.metrics.get? metric = some (scoreOf metric report) := by
  obtain ⟨score, hscore⟩ := exists_metric hmetric report.metrics
  rw [scoreOf, hscore, Option.getD_some]

theorem scored_eq {metric : String} (hmetric : metric ∈ Metrics.names) (reports : List (Report α)) :
    scored (·.metrics) metric reports =
      .ok (reports.map fun report => (report, scoreOf metric report)) := by
  induction reports with
  | nil => rfl
  | cons report rest ih =>
      rw [scored] at ih ⊢
      rw [List.mapM_cons, ih, get?_eq_scoreOf hmetric]
      rfl

/-- The best reports by a metric, with their places and scores. -/
def ranking (metric : String) (count : Int) (reports : List (Report α)) : List (Ranked α) :=
  (top count (rankBy (scoreOf metric) reports)).zipIdx.map fun entry =>
    ⟨entry.2 + 1, entry.1, scoreOf metric entry.1⟩

theorem findingsOf_eq {settings : Settings α} (hmetric : settings.metric ∈ Metrics.names)
    (progress : Progress α) (timedOut : Bool) :
    findingsOf settings progress timedOut =
      .ok ⟨ranking settings.metric settings.top progress.results, progress.tested, timedOut⟩ := by
  rw [findingsOf, rank, scored_eq hmetric]
  change Except.ok (Findings.mk _ _ _) = _
  rw [rankBy_map, top_map, List.zipIdx_map, List.map_map]
  rfl

/-- Results list the stable top of some reports by a metric, with places from one on. -/
structure Ranks (metric : String) (count : Nat) (reports : List (Report α))
    (results : List (Ranked α)) : Prop where
  places : results.map (·.place) = List.range' 1 results.length
  scores : ∀ ranked ∈ results, ranked.report.metrics.get? metric = some ranked.score
  best : ∃ best, StableTop (scoreOf metric) count reports best ∧
    results.map (·.report) = best.map (·.1)

theorem ranks_ranking (hlaws : Ordered α) {metric : String} (hmetric : metric ∈ Metrics.names)
    {count : Int} (hcount : 0 ≤ count) {reports : List (Report α)}
    (hdefined : ∀ report ∈ reports, isNaN (scoreOf metric report) = false) :
    Ranks metric count.toNat reports (ranking metric count reports) := by
  have htop : top count (rankBy (scoreOf metric) reports) =
      (rankBy (scoreOf metric) reports).take count.toNat := by
    rw [top, if_neg (Int.not_lt.2 hcount)]
  rw [ranking, htop]
  refine ⟨?_, ?_, _, stableTop_take hlaws count.toNat hdefined, ?_⟩
  · have hplaces := List.map_add_range' (a := 1) 0
      ((rankBy (scoreOf metric) reports).take count.toNat).length 1
    rw [List.map_map, List.length_map, List.length_zipIdx, ← hplaces, ← List.zipIdx_map_snd,
      List.map_map]
    exact List.map_congr_left fun entry _ => Nat.add_comm entry.2 1
  · intro ranked hranked
    obtain ⟨entry, _, rfl⟩ := List.mem_map.1 hranked
    exact get?_eq_scoreOf hmetric entry.1
  · rw [map_take_sorted, List.map_map]
    exact List.zipIdx_map_fst 0 _

/-- A search without a deadline returns unless the enumeration breaks off or a visit fails.  It has
counted the combinations whose periods are in order, and lists the stable top of the reports with
trades among them. -/
theorem findings_rank_traded {κ σ : Type} {now : StateM κ α} {draw : RandomSource σ} {seed : σ}
    {bars : List (Bar α)} {settings : Settings α} {plan : Plan α} {clock : κ} (hlaws : Ordered α)
    (hplan : planOf bars settings = .ok plan) (hdeadline : settings.deadline = none)
    (htop : 0 ≤ settings.top)
    (hdefined : ∀ report ∈ traded plan (enumerate draw seed plan.axes settings.cap).combinations,
      isNaN (scoreOf settings.metric report) = false) :
    let visited := enumerate draw seed plan.axes settings.cap
    let found := ((optimize now draw seed bars settings).run clock).1.outcome
    ((∃ findings, found = .ok findings) ↔ visited.fault = none ∧
      ∀ combination ∈ visited.combinations, CanVisit plan combination) ∧
    ∀ findings, found = .ok findings →
      findings.tested = (passing plan visited.combinations).length ∧
        Ranks settings.metric settings.top.toNat (traded plan visited.combinations)
          findings.results := by
  intro visited found
  have hmetric := mem_names_of_planOf hplan
  have hsettings : plan.settings = settings := (planOf_eq_ok hplan).1
  have hfound : found = pass visited plan := by
    have huntimed : ((explore now visited plan).run clock).1 = pass visited plan :=
      explore_untimed (hsettings ▸ hdeadline)
    rw [← huntimed]
    exact congrArg Warned.outcome (optimize_of_planOf hplan)
  have hiff (findings : Findings α) : found = .ok findings ↔
      (visited.fault = none ∧ ∀ combination ∈ visited.combinations, CanVisit plan combination) ∧
        ⟨ranking settings.metric settings.top (traded plan visited.combinations),
          (passing plan visited.combinations).length, false⟩ = findings := by
    rw [hfound, pass_eq_ok_iff, hsettings, findingsOf_eq hmetric, Except.ok.injEq]
  constructor
  · exact ⟨fun ⟨findings, hfindings⟩ => ((hiff findings).1 hfindings).1,
      fun hvisits => ⟨_, (hiff _).2 ⟨hvisits, rfl⟩⟩⟩
  · intro findings hfindings
    obtain ⟨_, rfl⟩ := (hiff findings).1 hfindings
    exact ⟨rfl, ranks_ranking hlaws hmetric htop hdefined⟩

/-- A search of six fast periods for the best three results. -/
def tiedSearch : Settings Exact :=
  { averagesSearch 6 [⟨"fastLength", .int 1, .int 6, .int 1, "int", "", true⟩] with top := 3 }

/-- The combinations that this search visits by a plan. -/
def tiedVisits (plan : Plan Exact) : Enumeration Exact :=
  enumerate (fun state => (0, state)) 0 plan.axes tiedSearch.cap

/-- Five of the six periods are tested and trade, all with one score, and three of them are
listed. -/
theorem findings_rank_traded_ties :
    ∃ plan findings, planOf threeBars tiedSearch = .ok plan ∧ found tiedSearch = .ok findings ∧
      (traded plan (tiedVisits plan).combinations).map (scoreOf tiedSearch.metric) =
        List.replicate 5 (.finite 50) ∧
      findings.tested = 5 ∧
      findings.tested = (passing plan (tiedVisits plan).combinations).length ∧
      Ranks tiedSearch.metric 3 (traded plan (tiedVisits plan).combinations) findings.results := by
  have hvisits : (planOf threeBars tiedSearch).toOption.map (fun (plan : Plan Exact) =>
      (traded plan (tiedVisits plan).combinations).map (scoreOf tiedSearch.metric)) =
        some (List.replicate 5 (.finite 50)) := by
    decide +kernel
  have htested : (found tiedSearch).toOption.map (·.tested) = some 5 := by
    decide +kernel
  obtain ⟨plan, hplan, hscores⟩ := Option.map_eq_some_iff.1 hvisits
  obtain ⟨findings, hfindings, htested⟩ := Option.map_eq_some_iff.1 htested
  have hplan : planOf threeBars tiedSearch = .ok plan := Outcome.toOption_eq_some.1 hplan
  have hfound : found tiedSearch = .ok findings := Outcome.toOption_eq_some.1 hfindings
  have hdefined : ∀ report ∈ traded plan (tiedVisits plan).combinations,
      isNaN (scoreOf tiedSearch.metric report) = false := by
    intro report hreport
    have hmem := List.mem_map_of_mem (f := scoreOf tiedSearch.metric) hreport
    rw [hscores] at hmem
    rw [List.eq_of_mem_replicate hmem]
    rfl
  have hranked :=
    (findings_rank_traded Exact.ordered hplan rfl (by decide) hdefined).2 findings hfound
  exact ⟨plan, findings, hplan, hfound, hscores, htested, hranked⟩

end Backtest.Search
