import Backtest.Proofs.Search.Period

/-!
# Results found again

A search parses its script once and lays the fixed parameters, those of a combination and the
defaults over each other for every run.  A single backtest parses the script itself and lays what it
is given over the defaults.  Given the parameters of a reported result it does not merely trade the
same: it returns that report, with its parameters in the same order (`single_of_findings`).
-/

namespace Backtest.Search

variable {α : Type} [Arith α]

/-- The backtest of one set of parameters from the bars on: of the script of a search if it has one,
else of its preset. -/
def single (bars : List (Bar α)) (settings : Settings α) (params : Params α) : Outcome (Report α) :=
  match scriptOf settings with
  | some code => backtestScript bars code params settings.asset
  | none => backtestPreset bars settings.strategy params settings.asset

/-! ## Defaults laid twice -/

theorem distinct_presetDefaults (kind : StrategyKind) :
    (Preset.defaults kind : Params α).Distinct := by
  cases kind <;> simp [Preset.defaults, Record.Distinct, Record.names]

theorem distinct_defaults_of_targetOf {settings : Settings α} {target : Target α}
    (htarget : targetOf settings = .ok target) : target.defaults.Distinct := by
  unfold targetOf at htarget
  split at htarget
  · injection htarget with htarget
    rw [← htarget]
    exact Record.distinct_ofEntries _
  · obtain ⟨kind, _, htarget⟩ := Outcome.bind_eq_ok.1 htarget
    injection htarget with htarget
    rw [← htarget]
    exact distinct_presetDefaults kind

/-- A target sees of its parameters only what lies over its defaults. -/
theorem runTarget_overlay {prices : Prices α} {asset : Option (Asset α)} {target : Target α}
    (hdefaults : target.defaults.Distinct) (params : Params α) :
    runTarget prices asset (target.defaults.overlay params) target =
      runTarget prices asset params target := by
  cases target with
  | preset kind =>
      have hused : Preset.resolve kind ((Preset.defaults kind : Params α).overlay params) =
          Preset.resolve kind params := Record.overlay_overlay hdefaults params
      change Report.ofPreset _ _ _ _ = Report.ofPreset _ _ _ _
      rw [Report.ofPreset, Report.ofPreset, Target.defaults, hused]
  | script statements defaults =>
      have hused : defaults.overlay (defaults.overlay params) = defaults.overlay params :=
        Record.overlay_overlay hdefaults params
      rw [runTarget, runTarget, Target.defaults, hused]

/-! ## One backtest -/

/-- A single backtest runs the target of the search, on the same table. -/
theorem single_eq_runTarget {bars : List (Bar α)} {settings : Settings α} {prices : Prices α}
    {target : Target α} (hprices : Prices.ofValidBars bars = .ok prices)
    (htarget : targetOf settings = .ok target) (params : Params α) :
    single bars settings params = runTarget prices settings.asset params target := by
  unfold targetOf at htarget
  unfold single
  cases hcode : scriptOf settings with
  | some code =>
      rw [hcode] at htarget
      injection htarget with htarget
      rw [← htarget]
      change backtestScript bars code params settings.asset = _
      rw [backtestScript, hprices]
      rfl
  | none =>
      rw [hcode] at htarget
      obtain ⟨kind, hkind, htarget⟩ := Outcome.bind_eq_ok.1 htarget
      injection htarget with htarget
      rw [← htarget]
      change backtestPreset bars settings.strategy params settings.asset = _
      rw [backtestPreset, hkind, hprices]
      rfl

/-- Every reported result is the report of a single backtest with the parameters that it shows. -/
theorem single_of_findings {κ σ : Type} {now : StateM κ α} {draw : RandomSource σ} {seed : σ}
    {bars : List (Bar α)} {settings : Settings α} {clock : κ} {findings : Findings α}
    (hfindings : ((optimize now draw seed bars settings).run clock).1.outcome = .ok findings) :
    ∀ ranked ∈ findings.results,
      single bars settings ranked.report.params = .ok ranked.report := by
  obtain ⟨plan, hplan, hresults⟩ := optimize_comeFrom hfindings
  obtain ⟨prices, axes, target, hprices, _, htarget, rfl⟩ := planOf_parts hplan
  intro ranked hranked
  obtain ⟨combination, _, hreport⟩ := hresults ranked.report (List.mem_map_of_mem hranked)
  have hrun : runTarget prices settings.asset (given settings combination) target =
      .ok ranked.report := hreport.run
  have hparams := params_of_runTarget hrun
  calc single bars settings ranked.report.params
      = runTarget prices settings.asset ranked.report.params target :=
        single_eq_runTarget hprices htarget _
    _ = runTarget prices settings.asset (given settings combination) target := by
        rw [hparams, runTarget_overlay (distinct_defaults_of_targetOf htarget)]
    _ = .ok ranked.report := hrun

/-- A script of two averages, the fast one of which is stepped through. -/
def averagesScript : String :=
  "fast = input.int(5)\nslow = input.int(3)\n" ++
    "if ta.ema(close, fast) > ta.ema(close, slow)\n    strategy.entry(\"Long\", strategy.long)"

def scriptSearch : Settings Exact :=
  { averagesSearch 3 [⟨"fast", .int 2, .int 4, .int 1, "int", "", true⟩] with
    script := some averagesScript }

/-- The search finds one result, and a single backtest with its parameters returns it. -/
theorem single_of_findings_threeBars :
    ∃ findings ranked, found scriptSearch = .ok findings ∧ findings.results = [ranked] ∧
      single threeBars scriptSearch ranked.report.params = .ok ranked.report := by
  have hcount : (found scriptSearch).toOption.map (·.results.length) = some 1 := by
    decide +kernel
  obtain ⟨findings, hfindings, hlength⟩ := Option.map_eq_some_iff.1 hcount
  obtain ⟨ranked, hranked⟩ := List.length_eq_one_iff.1 hlength
  have hfound : found scriptSearch = .ok findings := Outcome.toOption_eq_some.1 hfindings
  refine ⟨findings, ranked, hfound, hranked, single_of_findings hfound ranked ?_⟩
  rw [hranked]
  exact List.mem_singleton_self ranked

end Backtest.Search
