import Backtest.Proofs.Outcome
import Backtest.Proofs.Record
import Backtest.Search.Optimize
import Mathlib.Data.List.Basic

/-!
# Where the results of a search come from

Every result that a search ranks is the backtest of a combination that it visited, with the fixed
parameters under those of the combination, and its periods passed the test.  `visit_eq_ok` says what
one visit does; the groups of a search and the ranking at its end only collect such results.
-/

namespace Backtest.Search

variable {α : Type} [Arith α]

/-! ## One visit -/

/-- The parameters that a search gives to a backtest. -/
def given (settings : Settings α) (combination : Params α) : Params α :=
  Record.overlay settings.fixed combination

/-- A report of the backtest of a combination whose periods passed the test. -/
structure Reports (plan : Plan α) (combination : Params α) (report : Report α) : Prop where
  ordered : isOrdered plan.kind (given plan.settings combination) = .ok true
  run : runTarget plan.prices plan.settings.asset (given plan.settings combination) plan.target =
    .ok report

/-- The progress of a search after one more report. -/
def Progress.add (progress : Progress α) (report : Report α) : Progress α :=
  ⟨progress.tested + 1,
    if 0 < report.metrics.trades then progress.results ++ [report] else progress.results⟩

omit [Arith α] in
theorem Progress.mem_add {progress : Progress α} {report other : Report α}
    (hother : other ∈ (progress.add report).results) :
    other ∈ progress.results ∨ other = report := by
  rw [add] at hother
  dsimp only at hother
  split at hother
  · rcases List.mem_append.1 hother with hother | hother
    · exact .inl hother
    · exact .inr (List.mem_singleton.1 hother)
  · exact .inl hother

/-- A visit leaves a combination with periods out of order alone, and adds the report of any
other. -/
theorem visit_eq_ok {plan : Plan α} {progress next : Progress α} {combination : Params α} :
    visit plan progress combination = .ok next ↔
      (isOrdered plan.kind (given plan.settings combination) = .ok false ∧ next = progress) ∨
        ∃ report, Reports plan combination report ∧ next = progress.add report := by
  change (isOrdered plan.kind (given plan.settings combination) >>= fun ordered =>
    if ordered = true then
      runTarget plan.prices plan.settings.asset (given plan.settings combination) plan.target >>=
        fun report => .ok (progress.add report)
    else .ok progress) = .ok next ↔ _
  rw [Outcome.bind_eq_ok]
  constructor
  · rintro ⟨ordered, hordered, hnext⟩
    cases ordered with
    | false =>
        injection hnext with hnext
        exact .inl ⟨hordered, hnext.symm⟩
    | true =>
        obtain ⟨report, hreport, hnext⟩ := Outcome.bind_eq_ok.1 hnext
        injection hnext with hnext
        exact .inr ⟨report, ⟨hordered, hreport⟩, hnext.symm⟩
  · rintro (⟨hordered, rfl⟩ | ⟨report, hreport, rfl⟩)
    · exact ⟨false, hordered, rfl⟩
    · exact ⟨true, hreport.ordered, Outcome.bind_eq_ok.2 ⟨report, hreport.run, rfl⟩⟩

/-! ## Whole searches -/

/-- Results that come from a list of combinations. -/
def ComeFrom (plan : Plan α) (combinations : List (Params α)) (results : List (Report α)) : Prop :=
  ∀ report ∈ results, ∃ combination ∈ combinations, Reports plan combination report

section Runs

variable {plan : Plan α} {combinations visited : List (Params α)} {progress next : Progress α}

theorem ComeFrom.visit {combination : Params α} (hresults : ComeFrom plan visited progress.results)
    (hcombination : combination ∈ visited) (hnext : visit plan progress combination = .ok next) :
    ComeFrom plan visited next.results := by
  rcases visit_eq_ok.1 hnext with ⟨_, rfl⟩ | ⟨report, hreport, rfl⟩
  · exact hresults
  · intro other hother
    rcases Progress.mem_add hother with hother | rfl
    · exact hresults other hother
    · exact ⟨combination, hcombination, hreport⟩

theorem ComeFrom.visitAll (hresults : ComeFrom plan visited progress.results)
    (hcombinations : ∀ combination ∈ combinations, combination ∈ visited)
    (hnext : combinations.foldlM (Search.visit plan) progress = .ok next) :
    ComeFrom plan visited next.results := by
  induction combinations generalizing progress with
  | nil =>
      injection hnext with hnext
      exact hnext ▸ hresults
  | cons combination rest ih =>
      rw [List.foldlM_cons, Outcome.bind_eq_ok] at hnext
      obtain ⟨middle, hmiddle, hnext⟩ := hnext
      exact ih (hresults.visit (hcombinations combination List.mem_cons_self) hmiddle)
        (fun other hother => hcombinations other (List.mem_cons_of_mem _ hother)) hnext

/-- What visiting groups does, given what the clock shows before the first one. -/
theorem run_visitGroups_cons {κ : Type} (late : StateM κ Bool) (plan : Plan α)
    (group : List (Params α)) (rest : List (List (Params α))) (progress : Progress α) (clock : κ) :
    (visitGroups late plan (group :: rest) progress).run clock =
      let shown := late.run clock
      if shown.1 then (.ok (progress, true), shown.2)
      else match group.foldlM (Search.visit plan) progress with
        | .ok middle => (visitGroups late plan rest middle).run shown.2
        | .error fault => (.error fault, shown.2) := by
  rw [visitGroups, StateT.run_bind]
  change StateT.run (if (late.run clock).1 = true then _ else _) (late.run clock).2 = _
  dsimp only
  cases (late.run clock).1 with
  | true => rfl
  | false => cases group.foldlM (Search.visit plan) progress <;> rfl

/-- Whatever the clock shows, groups of visits only collect results. -/
theorem ComeFrom.visitGroups {κ : Type} {late : StateM κ Bool} {clock : κ}
    {groups : List (List (Params α))} {timedOut : Bool}
    (hresults : ComeFrom plan visited progress.results)
    (hgroups : ∀ group ∈ groups, ∀ combination ∈ group, combination ∈ visited)
    (hnext : ((visitGroups late plan groups progress).run clock).1 = .ok (next, timedOut)) :
    ComeFrom plan visited next.results := by
  induction groups generalizing progress clock with
  | nil =>
      injection hnext with hnext
      injection hnext with hnext
      exact hnext ▸ hresults
  | cons group rest ih =>
      rw [run_visitGroups_cons] at hnext
      dsimp only at hnext
      split at hnext
      · injection hnext with hnext
        injection hnext with hnext
        exact hnext ▸ hresults
      · split at hnext
        · next middle hmiddle =>
            exact ih (hresults.visitAll (hgroups group List.mem_cons_self) hmiddle)
              (fun other hother => hgroups other (List.mem_cons_of_mem _ hother)) hnext
        · exact nomatch hnext

end Runs

/-- Cutting a list into groups adds nothing. -/
theorem mem_of_mem_groupsOf {β : Type} {length fuel : Nat} {xs group : List β} {x : β}
    (hgroup : group ∈ groupsOf length fuel xs) (hx : x ∈ group) : x ∈ xs := by
  induction fuel generalizing xs with
  | zero => exact nomatch hgroup
  | succ fuel ih =>
      cases xs with
      | nil => exact nomatch hgroup
      | cons first rest =>
          rw [groupsOf] at hgroup
          · rcases List.mem_cons.1 hgroup with rfl | hgroup
            · exact List.mem_of_mem_take hx
            · exact List.mem_of_mem_drop (ih hgroup)
          · exact nofun

/-! ## Ranking -/

theorem mem_of_scored {β : Type} {metrics : β → Metrics α} {metric : String} {results : List β}
    {ranked : List (β × α)} (hranked : scored metrics metric results = .ok ranked) :
    ∀ entry ∈ ranked, entry.1 ∈ results := by
  induction Outcome.mapM_eq_ok_iff.1 hranked with
  | nil => exact nofun
  | @cons first entry rest others hentry hrest ih =>
      have hfirst : entry.1 = first := by
        split at hentry
        · injection hentry with hentry
          rw [← hentry]
        · exact nomatch hentry
      intro other hother
      rcases List.mem_cons.1 hother with rfl | hother
      · exact hfirst ▸ List.mem_cons_self
      · exact List.mem_cons_of_mem _ (ih (Outcome.mapM_eq_ok_iff.2 hrest) other hother)

theorem mem_of_mem_top {β : Type} {count : Int} {results : List β} {result : β}
    (hresult : result ∈ top count results) : result ∈ results := by
  unfold top at hresult
  split at hresult <;> exact List.mem_of_mem_take hresult

/-- Findings rank results of the search. -/
theorem mem_of_findingsOf {settings : Settings α} {progress : Progress α} {timedOut : Bool}
    {findings : Findings α} (hfindings : findingsOf settings progress timedOut = .ok findings) :
    ∀ ranked ∈ findings.results, ranked.report ∈ progress.results := by
  obtain ⟨ranked, hranked, hfindings⟩ := Outcome.bind_eq_ok.1 hfindings
  obtain ⟨entries, hentries, hranked⟩ := Outcome.bind_eq_ok.1 hranked
  injection hranked with hranked
  injection hfindings with hfindings
  rw [← hfindings, ← hranked]
  intro result hresult
  obtain ⟨entry, hentry, rfl⟩ := List.mem_map.1 hresult
  have hmem := mem_of_mem_top (List.fst_mem_of_mem_zipIdx hentry)
  exact mem_of_scored hentries entry.1 (List.mem_mergeSort.1 hmem)

/-- The visits of a plan from a moment on. -/
def visits {κ : Type} (now : StateM κ α) (enumeration : Enumeration α) (plan : Plan α)
    (clock : κ) : Outcome (Progress α × Bool) :=
  ((visitGroups (isLate now plan.settings.deadline) plan
    (groupsOf groupLength enumeration.combinations.length enumeration.combinations)
    ⟨0, []⟩).run clock).1

theorem run_explore {κ : Type} (now : StateM κ α) (enumeration : Enumeration α) (plan : Plan α)
    (clock : κ) :
    ((explore now enumeration plan).run clock).1 =
      match visits now enumeration plan clock with
      | .error fault => .error fault
      | .ok (progress, true) => findingsOf plan.settings progress true
      | .ok (progress, false) => match enumeration.fault with
        | some fault => .error fault
        | none => findingsOf plan.settings progress false := by
  rw [visits, explore, StateT.run_bind]
  obtain ⟨outcome, after⟩ := StateT.run (visitGroups (isLate now plan.settings.deadline) plan
    (groupsOf groupLength enumeration.combinations.length enumeration.combinations) ⟨0, []⟩) clock
  cases outcome with
  | error fault => rfl
  | ok found =>
      obtain ⟨progress, timedOut⟩ := found
      cases timedOut with
      | true => rfl
      | false =>
          dsimp only [pure, bind]
          cases enumeration.fault <;> rfl

/-- A search ranks what its visits found, unless the combinations ran out before time did. -/
theorem explore_eq_ok {κ : Type} {now : StateM κ α} {enumeration : Enumeration α} {plan : Plan α}
    {clock : κ} {findings : Findings α}
    (hfindings : ((explore now enumeration plan).run clock).1 = .ok findings) :
    ∃ progress timedOut, visits now enumeration plan clock = .ok (progress, timedOut) ∧
      findingsOf plan.settings progress timedOut = .ok findings := by
  rw [run_explore] at hfindings
  split at hfindings
  · cases hfindings
  · next progress hvisits => exact ⟨progress, true, hvisits, hfindings⟩
  · next progress hvisits =>
      split at hfindings
      · cases hfindings
      · exact ⟨progress, false, hvisits, hfindings⟩

theorem explore_comeFrom {κ : Type} {now : StateM κ α} {enumeration : Enumeration α}
    {plan : Plan α} {clock : κ} {findings : Findings α}
    (hfindings : ((explore now enumeration plan).run clock).1 = .ok findings) :
    ComeFrom plan enumeration.combinations (findings.results.map (·.report)) := by
  obtain ⟨progress, timedOut, hvisits, hranked⟩ := explore_eq_ok hfindings
  have hnone : ComeFrom plan enumeration.combinations (⟨0, []⟩ : Progress α).results := nofun
  have hprogress := hnone.visitGroups
    (fun group hgroup combination => mem_of_mem_groupsOf hgroup) hvisits
  intro report hreport
  obtain ⟨ranked, hmem, rfl⟩ := List.mem_map.1 hreport
  exact hprogress _ (mem_of_findingsOf hranked ranked hmem)

/-- The results of a search come from the combinations that it visits. -/
theorem optimize_comeFrom {κ σ : Type} {now : StateM κ α} {draw : RandomSource σ} {seed : σ}
    {bars : List (Bar α)} {settings : Settings α} {clock : κ} {findings : Findings α}
    (hfindings : ((optimize now draw seed bars settings).run clock).1.outcome = .ok findings) :
    ∃ plan, planOf bars settings = .ok plan ∧
      ComeFrom plan (enumerate draw seed plan.axes settings.cap).combinations
        (findings.results.map (·.report)) := by
  rw [optimize] at hfindings
  cases hplan : planOf bars settings with
  | error fault =>
      rw [hplan] at hfindings
      exact nomatch hfindings
  | ok plan =>
      refine ⟨plan, rfl, ?_⟩
      rw [hplan] at hfindings
      have hexplored : ((explore now (enumerate draw seed plan.axes settings.cap) plan).run
          clock).1 = .ok findings := hfindings
      exact explore_comeFrom hexplored

end Backtest.Search
