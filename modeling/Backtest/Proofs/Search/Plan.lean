import Backtest.Proofs.Outcome
import Backtest.Search.Optimize

/-!
# Plans

A search is checked before any backtest, and what remains of it is a plan: the price table, the axes
of the enabled ranges, and the target.  `planOf_parts` and `planOf_of_parts` say when there is one,
and a search with a plan explores it (`optimize_of_planOf`).
-/

namespace Backtest.Search

variable {α : Type} [Arith α]

/-- Each enabled range gives an axis of its name with its values. -/
theorem axesOf_eq_ok {ranges : List (Range α)} {axes : List (Axis α)} :
    axesOf ranges = .ok axes ↔
      List.Forall₂ (fun range axis => range.name = axis.1 ∧ expand range = .ok axis.2)
        (ranges.filter (·.enabled)) axes := by
  rw [axesOf, Outcome.mapM_eq_ok_iff]
  refine iff_of_eq (congrArg (List.Forall₂ · _ _) (funext₂ fun range axis => propext ?_))
  rw [Outcome.bind_eq_ok]
  constructor
  · rintro ⟨values, hvalues, haxis⟩
    injection haxis with haxis
    rw [← haxis]
    exact ⟨rfl, hvalues⟩
  · rintro ⟨hname, hvalues⟩
    exact ⟨axis.2, hvalues, hname ▸ rfl⟩

theorem names_of_axesOf {ranges : List (Range α)} {axes : List (Axis α)}
    (haxes : axesOf ranges = .ok axes) :
    axes.map (·.1) = (ranges.filter (·.enabled)).map (·.name) := by
  have hnames := (axesOf_eq_ok.1 haxes).imp fun _ _ hrange => hrange.1
  rw [eq_comm, ← List.forall₂_eq_eq_eq, List.forall₂_map_left_iff, List.forall₂_map_right_iff]
  exact hnames

/-- The parts of a plan. -/
theorem planOf_parts {bars : List (Bar α)} {settings : Settings α} {plan : Plan α}
    (hplan : planOf bars settings = .ok plan) :
    ∃ prices axes target, Prices.ofValidBars bars = .ok prices ∧
      axesOf settings.ranges = .ok axes ∧ targetOf settings = .ok target ∧
      plan = ⟨prices, axes, target, orderKind settings, settings⟩ := by
  unfold planOf at hplan
  split at hplan
  · exact nomatch hplan
  · obtain ⟨prices, hprices, hplan⟩ := Outcome.bind_eq_ok.1 hplan
    obtain ⟨axes, haxes, hplan⟩ := Outcome.bind_eq_ok.1 hplan
    obtain ⟨target, htarget, hplan⟩ := Outcome.bind_eq_ok.1 hplan
    injection hplan with hplan
    exact ⟨prices, axes, target, hprices, haxes, htarget, hplan.symm⟩

/-- A plan searches what its settings say. -/
theorem planOf_eq_ok {bars : List (Bar α)} {settings : Settings α} {plan : Plan α}
    (hplan : planOf bars settings = .ok plan) :
    plan.settings = settings ∧ plan.kind = orderKind settings ∧
      axesOf settings.ranges = .ok plan.axes := by
  obtain ⟨prices, axes, target, _, haxes, _, rfl⟩ := planOf_parts hplan
  exact ⟨rfl, rfl, haxes⟩

/-- A search has a plan as soon as its metric is known and it has prices, axes and a target. -/
theorem planOf_of_parts {bars : List (Bar α)} {settings : Settings α} {prices : Prices α}
    {axes : List (Axis α)} {target : Target α} (hmetric : settings.metric ∈ Metrics.names)
    (hprices : Prices.ofValidBars bars = .ok prices) (haxes : axesOf settings.ranges = .ok axes)
    (htarget : targetOf settings = .ok target) :
    planOf bars settings = .ok ⟨prices, axes, target, orderKind settings, settings⟩ := by
  have hknown : (!Metrics.names.contains settings.metric) = false := by
    rw [List.contains_iff_mem.2 hmetric, Bool.not_true]
  rw [planOf, hknown, hprices, haxes, htarget]
  rfl

theorem mem_names_of_planOf {bars : List (Bar α)} {settings : Settings α} {plan : Plan α}
    (hplan : planOf bars settings = .ok plan) : settings.metric ∈ Metrics.names := by
  unfold planOf at hplan
  split at hplan
  · exact nomatch hplan
  · next hknown => exact List.contains_iff_mem.1 (by simpa using hknown)

/-- A search with a plan explores it. -/
theorem optimize_of_planOf {κ σ : Type} {now : StateM κ α} {draw : RandomSource σ} {seed : σ}
    {bars : List (Bar α)} {settings : Settings α} {plan : Plan α} {clock : κ}
    (hplan : planOf bars settings = .ok plan) :
    ((optimize now draw seed bars settings).run clock).1 =
      ⟨samplingWarnings plan,
        ((explore now (enumerate draw seed plan.axes settings.cap) plan).run clock).1⟩ := by
  rw [optimize, hplan]
  rfl

end Backtest.Search
