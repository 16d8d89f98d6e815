import Backtest.Proofs.Report
import Backtest.Proofs.Search.Plan
import Backtest.Proofs.Search.Visit

/-!
# Periods of reported results

A search tests the order of periods on the parameters that it sets itself, fixed or stepped through,
before the preset adds its defaults.  So the periods of every reported result rise as far as the
search sets them (`set_periods_rise`).  A period that is left to its default is not compared, and a
result can be reported whose fast period is above its slow one (`default_period_not_compared`).
-/

namespace Backtest.Search

open Arith

variable {α : Type} [Arith α]

/-! ## What a plan visits -/

omit [Arith α] in
theorem length_of_mem_choices {axes : List (Axis α)} {values : List (Scalar α)}
    (hvalues : values ∈ choices axes) : values.length = axes.length := by
  induction axes generalizing values with
  | nil =>
      rw [List.mem_singleton.1 hvalues]
      rfl
  | cons axis rest ih =>
      obtain ⟨value, _, hvalues⟩ := List.mem_flatMap.1 hvalues
      obtain ⟨others, hothers, rfl⟩ := List.mem_map.1 hvalues
      rw [List.length_cons, List.length_cons, ih hothers]

omit [Arith α] in
theorem length_drawValues {σ : Type} (draw : RandomSource σ) (axes : List (Axis α)) (state : σ) :
    (drawValues draw axes state).1.length = axes.length := by
  induction axes generalizing state with
  | nil => rfl
  | cons axis rest ih => simp [drawValues, ih]

omit [Arith α] in
theorem mem_names_combinationOf {axes : List (Axis α)} {values : List (Scalar α)}
    (hlength : values.length = axes.length) {name : String} :
    name ∈ (combinationOf axes values).names ↔ name ∈ axes.map (·.1) := by
  have hle : (axes.map (·.1)).length ≤ values.length :=
    Nat.le_of_eq (by rw [List.length_map, hlength])
  rw [combinationOf, Record.mem_names_ofEntries, List.map_fst_zip hle]

theorem mem_sampleFrom {σ : Type} {draw : RandomSource σ} {axes : List (Axis α)}
    {fuel missing : Nat} {seen : List (Params α)} {state : σ} {combination : Params α}
    (hmem : combination ∈ (sampleFrom draw axes fuel missing seen state).combinations) :
    ∃ values, values.length = axes.length ∧ combination = combinationOf axes values := by
  induction fuel generalizing missing seen state with
  | zero => cases missing <;> exact nomatch hmem
  | succ fuel ih =>
      cases missing with
      | zero => exact nomatch hmem
      | succ missing =>
          simp only [sampleFrom] at hmem
          split at hmem
          · exact nomatch hmem
          · split at hmem
            · exact ih hmem
            · rcases List.mem_cons.1 hmem with rfl | hmem
              · exact ⟨_, length_drawValues draw axes state, rfl⟩
              · exact ih hmem

/-- Every combination of a search gives a value to each axis and to nothing else. -/
theorem mem_names_of_mem_enumerate {σ : Type} {draw : RandomSource σ} {seed : σ}
    {axes : List (Axis α)} {cap : Int} {combination : Params α}
    (hmem : combination ∈ (enumerate draw seed axes cap).combinations) {name : String} :
    name ∈ combination.names ↔ name ∈ axes.map (·.1) := by
  rw [enumerate] at hmem
  split at hmem
  · obtain ⟨values, hvalues, rfl⟩ := List.mem_map.1 hmem
    exact mem_names_combinationOf (length_of_mem_choices hvalues)
  · obtain ⟨values, hlength, rfl⟩ := mem_sampleFrom hmem
    exact mem_names_combinationOf hlength

/-! ## The parameters of a report -/

/-- The parameters that a backtest has where it is given none. -/
def Target.defaults : Target α → Params α
  | .preset kind => Preset.defaults kind
  | .script _ defaults => defaults

/-- A report shows the given parameters over the defaults. -/
theorem params_of_runTarget {prices : Prices α} {asset : Option (Asset α)} {params : Params α}
    {target : Target α} {report : Report α}
    (hreport : runTarget prices asset params target = .ok report) :
    report.params = Record.overlay target.defaults params := by
  cases target with
  | preset kind => exact Report.params_of_ofPreset hreport
  | script statements defaults => exact Report.params_of_ofStatements hreport

/-! ## The test of periods -/

/-- A name stands for a defined number. -/
def Stands (params : Params α) (name : String) (x : α) : Prop :=
  ∃ value, params.get? name = some value ∧ value.toReal = .ok x ∧ isNaN x = false

/-- Whatever numbers two names stand for, the first is below the second. -/
def Rise (params : Params α) (first second : String) : Prop :=
  ∀ x y, Stands params first x → Stands params second y → less x y = true

theorem periodUnder_of_stands {params : Params α} {name : String} {others : List String} {x : α}
    (hx : Stands params name x) : periodUnder (name :: others) params = .ok (some x) := by
  obtain ⟨value, hvalue, hreal, _⟩ := hx
  rw [periodUnder, List.findSome?_cons, hvalue]
  change value.toReal? = _
  rw [Scalar.toReal?, hreal]

/-- The pairs of periods that must rise for a preset. -/
def risingPairs : StrategyKind → List (String × String)
  | .dualAverage | .convergence => [("fastLength", "slowLength")]
  | .tripleAverage => [("fastLength", "midLength"), ("midLength", "slowLength")]
  | .strength | .bands => []

theorem outOfOrder_of_pair {kind : String} {params : Params α} (hkind : kind ∈ pairKinds)
    (hordered : isOrdered kind params = .ok true) :
    ∃ fast slow, periodUnder fastNames params = .ok fast ∧ periodUnder slowNames params = .ok slow ∧
      outOfOrder fast slow = false := by
  obtain ⟨fast, hfast, hordered⟩ := Outcome.bind_eq_ok.1 hordered
  obtain ⟨slow, hslow, hordered⟩ := Outcome.bind_eq_ok.1 hordered
  have htriple : kind ≠ StrategyKind.tripleAverage.name := by
    rintro rfl
    exact absurd hkind (by decide)
  rw [if_neg htriple] at hordered
  injection hordered with hordered
  rw [List.contains_iff_mem.2 hkind, Bool.true_and] at hordered
  exact ⟨fast, slow, hfast, hslow, by simpa using hordered⟩

theorem outOfOrder_of_triple {params : Params α}
    (hordered : isOrdered StrategyKind.tripleAverage.name params = .ok true) :
    ∃ fast mid slow, periodUnder fastNames params = .ok fast ∧
      periodUnder midNames params = .ok mid ∧ periodUnder slowNames params = .ok slow ∧
      outOfOrder fast mid = false ∧ outOfOrder mid slow = false := by
  obtain ⟨fast, hfast, hordered⟩ := Outcome.bind_eq_ok.1 hordered
  obtain ⟨slow, hslow, hordered⟩ := Outcome.bind_eq_ok.1 hordered
  rw [if_pos rfl] at hordered
  obtain ⟨mid, hmid, hordered⟩ := Outcome.bind_eq_ok.1 hordered
  injection hordered with hordered
  have hkept : outOfOrder fast mid = false ∧ outOfOrder mid slow = false := by
    simpa using hordered
  exact ⟨fast, mid, slow, hfast, hmid, hslow, hkept⟩

/-- Parameters that pass the test have rising periods, for an arithmetic in which of two defined
numbers one is at most the other or above it. -/
theorem rise_of_isOrdered {kind : StrategyKind} {params : Params α}
    (htotal : ∀ x y : α, isNaN x = false → isNaN y = false → atMost y x = false → less x y = true)
    (hordered : isOrdered kind.name params = .ok true) :
    ∀ pair ∈ risingPairs kind, Rise params pair.1 pair.2 := by
  -- The numbers under two names are those that the test has compared.
  have hrise {first second : String} {others more : List String} {p q : Option α}
      (hp : periodUnder (first :: others) params = .ok p)
      (hq : periodUnder (second :: more) params = .ok q) (hkept : outOfOrder p q = false) :
      Rise params first second := by
    intro x y hx hy
    rw [periodUnder_of_stands hx] at hp
    rw [periodUnder_of_stands hy] at hq
    injection hp with hp
    injection hq with hq
    rw [← hp, ← hq] at hkept
    exact htotal x y hx.choose_spec.2.2 hy.choose_spec.2.2 hkept
  cases kind with
  | dualAverage =>
      obtain ⟨fast, slow, hfast, hslow, hkept⟩ := outOfOrder_of_pair (by decide) hordered
      exact List.forall_mem_singleton.2 (hrise hfast hslow hkept)
  | convergence =>
      obtain ⟨fast, slow, hfast, hslow, hkept⟩ := outOfOrder_of_pair (by decide) hordered
      exact List.forall_mem_singleton.2 (hrise hfast hslow hkept)
  | tripleAverage =>
      obtain ⟨fast, mid, slow, hfast, hmid, hslow, hfirst, hsecond⟩ := outOfOrder_of_triple hordered
      exact List.forall_mem_cons.2
        ⟨hrise hfast hmid hfirst, List.forall_mem_singleton.2 (hrise hmid hslow hsecond)⟩
  | strength => exact nofun
  | bands => exact nofun

/-! ## Reported results -/

/-- A parameter that a search sets itself: it is fixed, or an enabled range steps through it. -/
def Sets (settings : Settings α) (name : String) : Prop :=
  name ∈ settings.fixed.names ∨ ∃ range ∈ settings.ranges, range.enabled = true ∧ range.name = name

theorem Sets.mem_names_given {settings : Settings α} {axes : List (Axis α)} {combination : Params α}
    {name : String} (hname : Sets settings name) (haxes : axesOf settings.ranges = .ok axes)
    (hcombination : name ∈ combination.names ↔ name ∈ axes.map (·.1)) :
    name ∈ (given settings combination).names := by
  apply Record.mem_names_overlay.2
  rcases hname with hname | ⟨range, hrange, henabled, hname⟩
  · exact .inr hname
  · refine .inl (hcombination.2 ?_)
    rw [names_of_axesOf haxes]
    exact List.mem_map.2 ⟨range, List.mem_filter.2 ⟨hrange, henabled⟩, hname⟩

/-- In every reported result, any two periods of the preset that the search sets rise. -/
theorem set_periods_rise {κ σ : Type} {now : StateM κ α} {draw : RandomSource σ} {seed : σ}
    {bars : List (Bar α)} {settings : Settings α} {clock : κ} {findings : Findings α}
    (kind : StrategyKind) (hstrategy : settings.strategy = kind.name)
    (hfixed : settings.fixed.Distinct)
    (htotal : ∀ x y : α, isNaN x = false → isNaN y = false → atMost y x = false → less x y = true)
    (hfindings : ((optimize now draw seed bars settings).run clock).1.outcome = .ok findings) :
    ∀ ranked ∈ findings.results, ∀ pair ∈ risingPairs kind,
      Sets settings pair.1 → Sets settings pair.2 →
        Rise ranked.report.params pair.1 pair.2 := by
  obtain ⟨plan, hplan, hresults⟩ := optimize_comeFrom hfindings
  obtain ⟨hsettings, hkind, haxes⟩ := planOf_eq_ok hplan
  have horder : plan.kind = kind.name := by
    rw [hkind, orderKind, hstrategy, if_neg (by cases kind <;> decide)]
  intro ranked hranked pair hpair hfirst hsecond
  obtain ⟨combination, hcombination, hreport⟩ :=
    hresults ranked.report (List.mem_map_of_mem hranked)
  have hnames : ∀ name, name ∈ combination.names ↔ name ∈ plan.axes.map (·.1) :=
    fun _ => mem_names_of_mem_enumerate hcombination
  have hordered := hreport.ordered
  rw [horder, hsettings] at hordered
  have hparams := params_of_runTarget hreport.run
  rw [hsettings] at hparams
  -- What the report shows under a name that the search sets is what the test has seen.
  have hdistinct : (given settings combination).Distinct := hfixed.overlay combination
  have hseen {name : String} (hname : Sets settings name) {x : α}
      (hx : Stands ranked.report.params name x) : Stands (given settings combination) name x := by
    obtain ⟨value, hvalue, hreal⟩ := hx
    have hmem := hname.mem_names_given haxes (hnames name)
    rw [hparams, Record.get?_overlay_of_mem hdistinct _ hmem] at hvalue
    exact ⟨value, hvalue, hreal⟩
  intro x y hx hy
  exact rise_of_isOrdered htotal hordered pair hpair x y (hseen hfirst hx) (hseen hsecond hy)

/-! ## Two searches -/

/-- A search for two averages over some ranges, with the slow period fixed. -/
def averagesSearch (slow : Int) (ranges : List (Range Exact)) : Settings Exact :=
  ⟨StrategyKind.dualAverage.name, none, ranges, [("slowLength", .int slow)], 1000,
    "total_return_pct", 20, none, none⟩

/-- What a search over the three bars finds, on a clock that stands still. -/
def found (settings : Settings Exact) : Outcome (Findings Exact) :=
  ((optimize (pure zero : StateM Unit Exact) (fun state => (0, state)) 0 threeBars settings).run
    ()).1.outcome

/-- The number that a report shows under a name. -/
def shown (report : Report Exact) (name : String) : Option Exact :=
  (report.params.get? name).bind fun value => value.toReal.toOption

theorem stands_of_shown {report : Report Exact} {name : String} {x : Rat}
    (hshown : shown report name = some (.finite x)) : Stands report.params name (.finite x) := by
  obtain ⟨value, hvalue, hreal⟩ := Option.bind_eq_some_iff.1 hshown
  exact ⟨value, hvalue, Outcome.toOption_eq_some.1 hreal, rfl⟩

/-- A search with one result and the two periods that it shows. -/
def FindsOne (settings : Settings Exact) (fast slow : Rat) : Prop :=
  (found settings).toOption.map (fun findings => findings.results.map fun (ranked : Ranked Exact) =>
    (shown ranked.report "fastLength", shown ranked.report "slowLength")) =
      some [(some (.finite fast), some (.finite slow))]

theorem FindsOne.exists_ranked {settings : Settings Exact} {fast slow : Rat}
    (hfinds : FindsOne settings fast slow) :
    ∃ findings ranked, found settings = .ok findings ∧ findings.results = [ranked] ∧
      Stands ranked.report.params "fastLength" (.finite fast) ∧
      Stands ranked.report.params "slowLength" (.finite slow) := by
  obtain ⟨findings, hfindings, hresults⟩ := Option.map_eq_some_iff.1 hfinds
  obtain ⟨ranked, hranked, hshown⟩ := List.map_eq_singleton_iff.1 hresults
  injection hshown with hfast hslow
  exact ⟨findings, ranked, Outcome.toOption_eq_some.1 hfindings, hranked, stands_of_shown hfast,
    stands_of_shown hslow⟩

theorem exact_total {x y : Exact} (hx : isNaN x = false) (hy : isNaN y = false)
    (hnot : atMost y x = false) : less x y = true := by
  cases x with
  | undefined => exact nomatch hx
  | finite x =>
      cases y with
      | undefined => exact nomatch hy
      | finite y =>
          have hlt : x < y := Rat.not_le.1 (of_decide_eq_false hnot)
          exact decide_eq_true hlt

/-- With the slow period fixed at three, only the fast period of two is reported. -/
theorem set_periods_rise_threeBars :
    ∃ findings ranked,
      found (averagesSearch 3 [⟨"fastLength", .int 2, .int 4, .int 1, "int", "", true⟩]) =
        .ok findings ∧ findings.results = [ranked] ∧
      Stands ranked.report.params "fastLength" (.finite 2) ∧
      Stands ranked.report.params "slowLength" (.finite 3) ∧
      Rise ranked.report.params "fastLength" "slowLength" := by
  have hfinds : FindsOne
      (averagesSearch 3 [⟨"fastLength", .int 2, .int 4, .int 1, "int", "", true⟩]) 2 3 := by
    unfold FindsOne
    decide +kernel
  obtain ⟨findings, ranked, hfindings, hranked, hfast, hslow⟩ := hfinds.exists_ranked
  refine ⟨findings, ranked, hfindings, hranked, hfast, hslow, ?_⟩
  have hfixed : Record.Distinct [("slowLength", (.int 3 : Scalar Exact))] :=
    List.nodup_singleton _
  refine set_periods_rise .dualAverage rfl hfixed (fun _ _ => exact_total) hfindings ranked ?_ _
    List.mem_cons_self (.inr ?_) (.inl ?_)
  · rw [hranked]
    exact List.mem_singleton_self ranked
  · exact ⟨_, List.mem_singleton_self _, rfl, rfl⟩
  · exact List.mem_singleton_self _

/-- With the slow period fixed at two and nothing said of the fast one, the default of nine is
reported as a result. -/
theorem default_period_not_compared :
    ∃ findings ranked, found (averagesSearch 2 []) = .ok findings ∧ ranked ∈ findings.results ∧
      ¬ Rise ranked.report.params "fastLength" "slowLength" := by
  have hfinds : FindsOne (averagesSearch 2 []) 9 2 := by
    unfold FindsOne
    decide +kernel
  obtain ⟨findings, ranked, hfindings, hranked, hfast, hslow⟩ := hfinds.exists_ranked
  refine ⟨findings, ranked, hfindings, ?_, ?_⟩
  · rw [hranked]
    exact List.mem_singleton_self ranked
  · intro hrise
    exact absurd (hrise _ _ hfast hslow) (by decide +kernel)

end Backtest.Search
