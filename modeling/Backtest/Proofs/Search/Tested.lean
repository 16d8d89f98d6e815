import Backtest.Proofs.Search.Deadline

/-!
# What a search tests

A search tests the combinations whose periods are in order, and ranks the reports of those that
traded.  When it is never late it visits all combinations: it fails if one of them cannot be visited
or if the enumeration breaks off, and else counts the tested ones and ranks the reports with trades,
both in the order of the visits (`pass_eq_ok_iff`).
-/

namespace Backtest.Search

variable {α : Type} [Arith α]

/-- The score of a report in a metric. -/
def scoreOf (metric : String) (report : Report α) : α :=
  (report.metrics.get? metric).getD Arith.nan

section Visits

variable (plan : Plan α)

/-- The periods of a combination are in order. -/
def passes (combination : Params α) : Bool :=
  (isOrdered plan.kind (given plan.settings combination)).toOption == some true

/-- The report of a combination, if its backtest returns one. -/
def reportOf? (combination : Params α) : Option (Report α) :=
  (runTarget plan.prices plan.settings.asset (given plan.settings combination)
    plan.target).toOption

/-- The combinations that are backtested. -/
def passing (combinations : List (Params α)) : List (Params α) := combinations.filter (passes plan)

/-- The reports with trades of the combinations that are backtested. -/
def traded (combinations : List (Params α)) : List (Report α) :=
  ((passing plan combinations).filterMap (reportOf? plan)).filter fun report =>
    0 < report.metrics.trades

/-- A combination can be visited: its periods are out of order, or its backtest returns. -/
def CanVisit (combination : Params α) : Prop :=
  isOrdered plan.kind (given plan.settings combination) = .ok false ∨
    ∃ report, Reports plan combination report

end Visits

variable {plan : Plan α} {combination : Params α} {combinations : List (Params α)}
  {progress next : Progress α}

theorem passes_eq_true : passes plan combination = true ↔
    isOrdered plan.kind (given plan.settings combination) = .ok true := by
  rw [passes, beq_iff_eq, Outcome.toOption_eq_some]

theorem Reports.reportOf?_eq {report : Report α} (hreport : Reports plan combination report) :
    reportOf? plan combination = some report :=
  Outcome.toOption_eq_some.2 hreport.run

theorem passes_of_outOfOrder
    (horder : isOrdered plan.kind (given plan.settings combination) = .ok false) :
    passes plan combination = false := by
  rw [passes, horder]
  rfl

theorem passing_cons_of_outOfOrder
    (horder : isOrdered plan.kind (given plan.settings combination) = .ok false) :
    passing plan (combination :: combinations) = passing plan combinations :=
  List.filter_cons_of_neg (by rw [passes_of_outOfOrder horder]; exact Bool.false_ne_true)

theorem Reports.passing_cons {report : Report α} (hreport : Reports plan combination report) :
    passing plan (combination :: combinations) = combination :: passing plan combinations :=
  List.filter_cons_of_pos (passes_eq_true.2 hreport.ordered)

theorem Reports.traded_cons {report : Report α} (hreport : Reports plan combination report) :
    traded plan (combination :: combinations) =
      (if 0 < report.metrics.trades then [report] else []) ++ traded plan combinations := by
  rw [traded, hreport.passing_cons, List.filterMap_cons_some hreport.reportOf?_eq, List.filter_cons,
    traded]
  by_cases htrades : 0 < report.metrics.trades <;> simp [htrades]

/-- The progress of a search after visits of some more combinations. -/
def Progress.after (progress : Progress α) (plan : Plan α) (combinations : List (Params α)) :
    Progress α :=
  ⟨progress.tested + (passing plan combinations).length,
    progress.results ++ traded plan combinations⟩

theorem Progress.after_cons_of_outOfOrder (progress : Progress α)
    (horder : isOrdered plan.kind (given plan.settings combination) = .ok false) :
    progress.after plan (combination :: combinations) = progress.after plan combinations := by
  rw [after, after, traded, passing_cons_of_outOfOrder horder, traded]

theorem Reports.after_cons {report : Report α} (hreport : Reports plan combination report)
    (progress : Progress α) :
    progress.after plan (combination :: combinations) =
      (progress.add report).after plan combinations := by
  rw [Progress.after, Progress.after, hreport.passing_cons, hreport.traded_cons, Progress.add,
    List.length_cons]
  by_cases htrades : 0 < report.metrics.trades <;> simp [htrades, Nat.add_assoc, Nat.add_comm]

/-- Visits of all combinations succeed if each of them can be visited. -/
theorem visitAll_eq_ok_iff :
    combinations.foldlM (visit plan) progress = .ok next ↔
      (∀ combination ∈ combinations, CanVisit plan combination) ∧
        next = progress.after plan combinations := by
  induction combinations generalizing progress with
  | nil =>
      constructor
      · intro hnext
        injection hnext with hnext
        exact ⟨nofun, by rw [← hnext]; simp [Progress.after, traded, passing]⟩
      · rintro ⟨_, rfl⟩
        simp [Progress.after, traded, passing]
        rfl
  | cons combination rest ih =>
      rw [List.foldlM_cons, Outcome.bind_eq_ok, List.forall_mem_cons]
      constructor
      · rintro ⟨middle, hmiddle, hnext⟩
        obtain ⟨hrest, rfl⟩ := ih.1 hnext
        rcases visit_eq_ok.1 hmiddle with ⟨horder, rfl⟩ | ⟨report, hreport, rfl⟩
        · exact ⟨⟨.inl horder, hrest⟩, (Progress.after_cons_of_outOfOrder _ horder).symm⟩
        · exact ⟨⟨.inr ⟨report, hreport⟩, hrest⟩, (hreport.after_cons progress).symm⟩
      · rintro ⟨⟨hfirst, hrest⟩, rfl⟩
        rcases hfirst with horder | ⟨report, hreport⟩
        · exact ⟨progress, visit_eq_ok.2 (.inl ⟨horder, rfl⟩),
            ih.2 ⟨hrest, Progress.after_cons_of_outOfOrder _ horder⟩⟩
        · exact ⟨progress.add report, visit_eq_ok.2 (.inr ⟨report, hreport, rfl⟩),
            ih.2 ⟨hrest, hreport.after_cons progress⟩⟩

/-- What a search that is never late finds. -/
theorem pass_eq_ok_iff {enumeration : Enumeration α} {findings : Findings α} :
    pass enumeration plan = .ok findings ↔
      (enumeration.fault = none ∧
        ∀ combination ∈ enumeration.combinations, CanVisit plan combination) ∧
        findingsOf plan.settings ⟨(passing plan enumeration.combinations).length,
          traded plan enumeration.combinations⟩ false = .ok findings := by
  have hafter : (⟨0, []⟩ : Progress α).after plan enumeration.combinations =
      ⟨(passing plan enumeration.combinations).length, traded plan enumeration.combinations⟩ := by
    rw [Progress.after, Nat.zero_add, List.nil_append]
  rw [pass, Outcome.bind_eq_ok]
  constructor
  · rintro ⟨progress, hprogress, hfindings⟩
    obtain ⟨hvisits, rfl⟩ := visitAll_eq_ok_iff.1 hprogress
    rw [hafter] at hfindings
    cases hfault : enumeration.fault with
    | some fault =>
        rw [hfault] at hfindings
        cases hfindings
    | none =>
        rw [hfault] at hfindings
        exact ⟨⟨rfl, hvisits⟩, hfindings⟩
  · rintro ⟨⟨hfault, hvisits⟩, hfindings⟩
    refine ⟨_, visitAll_eq_ok_iff.2 ⟨hvisits, rfl⟩, ?_⟩
    rw [hfault, hafter]
    exact hfindings

end Backtest.Search
