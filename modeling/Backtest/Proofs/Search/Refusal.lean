import Backtest.Proofs.Expr.Length
import Backtest.Proofs.Search.Ranking

/-!
# Searches that are refused

A search is checked before any backtest, and a backtest checks nothing again: whatever the bars and
the parameters are, it gives a report or ends in a fault of the run itself.  `runTarget_runs`
follows this through presets and scripts, and `optimize_failsBy` concludes that a search which ends
in any other fault has been refused.
-/

namespace Backtest

open Outcome

/-- The faults that a run over checked bars can end in. -/
def Fault.OfRun : Fault → Prop
  | .notANumber _ | .integerTooLong _ | .integerTooLarge | .quotientTooLarge | .divisionByZero
  | .outsideCalendar | .wrongType | .noSuchBar | .neverEnds | .tooDeep => True
  | _ => False

/-- An outcome that no check decides: a result, or a fault of a run. -/
abbrev Outcome.Runs {β : Type} (outcome : Outcome β) : Prop := FailsBy Fault.OfRun outcome

variable {α : Type} [Arith α]

/-! ## Scalars -/

namespace Scalar

theorem ofInt_runs (n : Int) : (ofInt n : Outcome α).Runs := by
  rw [ofInt]
  split
  · exact failsBy_ok _ _
  · exact failsBy_error trivial

theorem toReal_runs (value : Scalar α) : value.toReal.Runs := by
  cases value with
  | int n => exact ofInt_runs n
  | text content =>
      rw [toReal]
      split
      · exact failsBy_ok _ _
      · exact failsBy_error trivial
  | real _ | flag _ => exact failsBy_ok _ _
  | missing | list _ => exact failsBy_error trivial

theorem toReal?_runs (value : Scalar α) : value.toReal?.Runs := by
  rw [toReal?]
  split
  · exact failsBy_ok _ _
  · next fault hfault =>
      split
      · exact failsBy_error (toReal_runs value fault hfault)
      · exact failsBy_ok _ _

theorem period_runs (value : Scalar α) (default : Nat) : (value.period default).Runs := by
  have hperiod : value.period?.Runs := by
    rw [period?]
    split
    · exact failsBy_ok _ _
    · exact failsBy_ok _ _
    · next fault hfault => exact failsBy_error (toReal?_runs value fault hfault)
  rw [period]
  split
  · exact failsBy_ok _ _
  · next fault hfault => exact failsBy_error (hperiod fault hfault)

end Scalar

theorem Value.numeric_runs (value : Value α) (bars : Nat) : (value.numeric bars).Runs := by
  cases value with
  | list items => exact failsBy_error trivial
  | _ => exact failsBy_ok _ _

theorem Series.weighted_runs (period : Nat) (xs : Series α) : (weighted period xs).Runs := by
  refine failsBy_bind ?_ fun total _ => failsBy_ok _ _
  exact failsBy_bind (Scalar.ofInt_runs _) fun twice _ => failsBy_ok _ _

theorem Series.average_runs (kind : AverageKind) (period : Nat) (xs : Series α) :
    (average kind period xs).Runs := by
  cases kind with
  | weighted => exact weighted_runs period xs
  | simple | exponential => exact failsBy_ok _ _

/-! ## Expressions -/

namespace Expr

variable {context : Context α} {operand : Evaluator α}

theorem firstOf_runs {ι β : Type} {input : ι} {attempts : List (ι → Outcome (Option β))}
    (hattempts : ∀ attempt ∈ attempts, (attempt input).Runs) : (firstOf input attempts).Runs := by
  induction attempts with
  | nil => exact failsBy_ok _ _
  | cons attempt others ih =>
      refine failsBy_bind (hattempts attempt List.mem_cons_self) fun value _ => ?_
      cases value with
      | some value => exact failsBy_ok _ _
      | none => exact ih fun other hother => hattempts other (List.mem_cons_of_mem _ hother)

theorem numericValue_runs (value : Option (Value α)) : (numericValue context value).Runs := by
  cases value with
  | none => exact failsBy_ok _ _
  | some value => exact value.numeric_runs context.bars

theorem namedSeries_runs (name : String) : (namedSeries context name).Runs := by
  rw [namedSeries]
  split
  · next value _ => exact value.numeric_runs context.bars
  · exact failsBy_ok _ _

theorem windowOf_runs (text : Option Text.Chars) (default : Nat) :
    (windowOf context text default).Runs := by
  cases text with
  | none => exact failsBy_ok _ _
  | some text =>
      rw [windowOf]
      split
      · exact failsBy_ok _ _
      · exact Scalar.period_runs _ _
      · exact Scalar.period_runs _ _

section Operators

variable (hoperand : ∀ text, (operand text).Runs)
include hoperand

theorem numericOf_runs (text : Text.Chars) : (numericOf context operand text).Runs :=
  failsBy_bind (hoperand text) fun value _ => numericValue_runs value

theorem truthOf_runs (text : Text.Chars) : (truthOf context operand text).Runs := by
  refine failsBy_bind (hoperand text) fun value _ => ?_
  cases value <;> exact failsBy_ok _ _

omit hoperand in
theorem bothOf_runs {β : Type} {side : Text.Chars → Outcome (Option β)}
    (hside : ∀ text, (side text).Runs) (texts : Text.Chars × Text.Chars) :
    (bothOf side texts).Runs := by
  refine failsBy_bind (hside _) fun x _ => failsBy_bind (hside _) fun y _ => ?_
  cases x <;> cases y <;> exact failsBy_ok _ _

theorem ternary_runs (text : Text.Chars) : (ternary context operand text).Runs := by
  rw [ternary]
  split
  · exact failsBy_ok _ _
  · split
    · exact failsBy_ok _ _
    · refine failsBy_bind (truthOf_runs hoperand _) fun chosen _ => ?_
      cases chosen with
      | none => exact failsBy_ok _ _
      | some chosen =>
          refine failsBy_bind (hoperand _) fun x _ => failsBy_bind (hoperand _) fun y _ => ?_
          rw [pick]
          split
          · exact failsBy_ok _ _
          · refine failsBy_bind (numericValue_runs x) fun xs _ => ?_
            refine failsBy_bind (numericValue_runs y) fun ys _ => ?_
            cases xs <;> cases ys <;> exact failsBy_ok _ _

theorem junction_runs (kind : Junction) (symbol text : Text.Chars) :
    (junction context operand kind symbol text).Runs := by
  rw [junction]
  split
  · exact failsBy_ok _ _
  · refine failsBy_bind (bothOf_runs (truthOf_runs hoperand) _) fun sides _ => ?_
    cases sides <;> exact failsBy_ok _ _

theorem negation_runs (text : Text.Chars) : (negation context operand text).Runs := by
  rw [negation]
  split
  · exact failsBy_ok _ _
  · refine failsBy_bind (truthOf_runs hoperand _) fun flags _ => ?_
    cases flags <;> exact failsBy_ok _ _

theorem comparison_runs (kind : Comparison) (text : Text.Chars) :
    (comparison context operand kind text).Runs := by
  rw [comparison]
  split
  · exact failsBy_ok _ _
  · refine failsBy_bind (bothOf_runs (numericOf_runs hoperand) _) fun sides _ => ?_
    cases sides with
    | some sides => exact failsBy_ok _ _
    | none =>
        dsimp only
        split
        · refine failsBy_bind (bothOf_runs hoperand _) fun values _ => ?_
          cases values <;> exact failsBy_ok _ _
        · exact failsBy_ok _ _

theorem operation_runs (kind : Operation) (text : Text.Chars) :
    (operation context operand kind text).Runs := by
  apply firstOf_runs
  intro attempt hattempt
  obtain ⟨texts, -, rfl⟩ := List.mem_map.1 hattempt
  refine failsBy_bind (bothOf_runs (numericOf_runs hoperand) texts) fun sides _ => ?_
  cases sides <;> exact failsBy_ok _ _

end Operators

/-! ## Calls -/

section Calls

variable (hoperand : ∀ text, (operand text).Runs) (arguments : List Text.Chars)
include hoperand

theorem convergenceOf_runs : (convergenceOf context operand arguments).Runs := by
  refine failsBy_bind (numericOf_runs hoperand _) fun xs _ => ?_
  cases xs with
  | none => exact failsBy_ok _ _
  | some xs =>
      refine failsBy_bind (windowOf_runs _ _) fun fast _ => ?_
      refine failsBy_bind (windowOf_runs _ _) fun slow _ => ?_
      exact failsBy_bind (windowOf_runs _ _) fun signal _ => failsBy_ok _ _

theorem bandsOf_runs : (bandsOf context operand arguments).Runs := by
  refine failsBy_bind (numericOf_runs hoperand _) fun xs _ => ?_
  cases xs with
  | none => exact failsBy_ok _ _
  | some xs => exact failsBy_bind (windowOf_runs _ _) fun period _ => failsBy_ok _ _

omit hoperand in
theorem averageRangeOf_runs : (averageRangeOf context arguments).Runs := by
  refine failsBy_bind (namedSeries_runs "high") fun high _ => ?_
  refine failsBy_bind (namedSeries_runs "low") fun low _ => ?_
  refine failsBy_bind (namedSeries_runs "close") fun close _ => ?_
  split
  · exact failsBy_bind (windowOf_runs _ _) fun period _ => failsBy_ok _ _
  · exact failsBy_ok _ _

theorem stochasticOf_runs : (stochasticOf context operand arguments).Runs := by
  refine failsBy_bind (numericOf_runs hoperand _) fun source _ => ?_
  refine failsBy_bind (numericOf_runs hoperand _) fun high _ => ?_
  refine failsBy_bind (numericOf_runs hoperand _) fun low _ => ?_
  split
  · exact failsBy_bind (windowOf_runs _ _) fun period _ => failsBy_ok _ _
  · exact failsBy_ok _ _

omit hoperand in
theorem windowCall_runs (builtin : Builtin) (xs : Series α) :
    (windowCall context builtin xs arguments).Runs := by
  refine failsBy_bind (windowOf_runs _ _) fun period _ => ?_
  cases builtin with
  | weighted =>
      exact failsBy_bind (Series.weighted_runs period xs) fun ys _ => failsBy_ok _ _
  | _ => exact failsBy_ok _ _

theorem sourceCall_runs (builtin : Builtin) :
    (sourceCall context operand builtin arguments).Runs := by
  refine failsBy_bind (numericOf_runs hoperand _) fun xs _ => ?_
  cases xs with
  | none => exact failsBy_ok _ _
  | some xs =>
      cases builtin with
      | absolute | defined => exact failsBy_ok _ _
      | crossover | crossunder | larger | smaller =>
          refine failsBy_bind (numericOf_runs hoperand _) fun ys _ => ?_
          cases ys <;> exact failsBy_ok _ _
      | _ => exact windowCall_runs arguments _ xs

theorem callValue_runs (builtin : Builtin) :
    (callValue context operand builtin arguments).Runs := by
  simp only [callValue]
  cases builtin with
  | convergence =>
      exact failsBy_bind (convergenceOf_runs hoperand arguments) fun lines _ => failsBy_ok _ _
  | bands => exact failsBy_bind (bandsOf_runs hoperand arguments) fun lines _ => failsBy_ok _ _
  | averageRange => exact averageRangeOf_runs arguments
  | stochastic => exact stochasticOf_runs hoperand arguments
  | _ => exact sourceCall_runs hoperand arguments _

omit arguments in
theorem callOf_runs (text : Text.Chars) : (callOf context operand text).Runs := by
  rw [callOf]
  split
  · exact failsBy_ok _ _
  · split
    · exact failsBy_ok _ _
    · exact callValue_runs hoperand _ _

end Calls

/-! ## Whole evaluations -/

theorem history_runs (text : Text.Chars) : (history context text).Runs := by
  rw [history]
  split
  · exact failsBy_ok _ _
  · dsimp only
    split
    · refine failsBy_bind ?_ fun back _ => failsBy_ok _ _
      split
      · exact failsBy_ok _ _
      · exact failsBy_error trivial
      · exact failsBy_ok _ _
    · refine failsBy_bind ?_ fun back _ => failsBy_ok _ _
      split
      · exact failsBy_ok _ _
      · exact failsBy_error trivial
      · exact failsBy_ok _ _
    · exact failsBy_ok _ _

theorem atom_runs (text : Text.Chars) : (atom context text).Runs := by
  rw [atom]
  repeat' split
  all_goals exact failsBy_ok _ _

theorem evaluateWithin_runs (context : Context α) (depth : Nat) (text : Text.Chars) :
    (evaluateWithin context depth text).Runs := by
  induction depth generalizing text with
  | zero => exact failsBy_error trivial
  | succ depth ih =>
      change (step context (evaluateWithin context depth) text).Runs
      rw [step]
      split
      · exact failsBy_ok _ _
      · split
        · exact ih _
        · apply firstOf_runs
          apply forall_mem_constructs
          · exact ternary_runs ih _
          · exact fun kind symbol => junction_runs ih kind symbol _
          · exact negation_runs ih _
          · exact fun kind => comparison_runs ih kind _
          · exact fun kind => operation_runs ih kind _
          · exact history_runs _
          · exact callOf_runs ih _
          · exact atom_runs _

theorem evaluateTriple?_runs (context : Context α) (triple : Triple)
    (arguments : List Text.Chars) : (evaluateTriple? context triple arguments).Runs := by
  have hoperand : ∀ text, (argumentEvaluator context arguments text).Runs :=
    evaluateWithin_runs context _
  cases triple with
  | convergence =>
      exact failsBy_bind (convergenceOf_runs hoperand arguments) fun lines _ => failsBy_ok _ _
  | bands => exact failsBy_bind (bandsOf_runs hoperand arguments) fun lines _ => failsBy_ok _ _

end Expr

/-! ## Scripts -/

namespace Script.Run

theorem start_runs (prices : Prices α) (params : Params α) : (start prices params).Runs := by
  suffices henv : ∀ env : Environment α, (Environment.withParams env params).Runs from
    failsBy_bind (henv _) fun env _ => failsBy_ok _ _
  induction params with
  | nil => exact fun env => failsBy_ok _ _
  | cons entry rest ih =>
      intro env
      refine failsBy_bind ?_ fun value _ => ih _
      cases entry.2 with
      | int n => exact failsBy_bind (Scalar.ofInt_runs n) fun x _ => failsBy_ok _ _
      | _ => exact failsBy_ok _ _

theorem assign_runs (run : Run α) (line : Nat) (name : String) (expression : Text.Chars) :
    (run.assign line name expression).Runs := by
  refine failsBy_bind (Expr.evaluateWithin_runs _ _ _) fun value _ => ?_
  cases value <;> exact failsBy_ok _ _

theorem destructure_runs (run : Run α) (line : Nat) (names : List String) (triple : Expr.Triple)
    (arguments : List Text.Chars) : (run.destructure line names triple arguments).Runs := by
  refine failsBy_bind (Expr.evaluateTriple?_runs _ _ _) fun results _ => ?_
  cases results <;> exact failsBy_ok _ _

theorem condition_runs (run : Run α) (line : Nat) (text : Text.Chars) :
    (run.condition line text).Runs := by
  refine failsBy_bind (Expr.evaluateWithin_runs _ _ _) fun value _ => ?_
  split <;> exact failsBy_ok _ _

mutual

theorem statement_runs (guard : Option Guard) (run : Run α) (content : Statement) :
    (statement guard run content).Runs := by
  cases content with
  | signal line kind label => exact failsBy_ok _ _
  | chain line branches otherwise =>
      rw [statement]
      refine failsBy_bind (chain_runs _ _ _ branches) fun state _ => ?_
      dsimp only
      split
      · exact failsBy_ok _ _
      · exact block_runs _ _ otherwise
  | assign line name expression =>
      rw [statement]
      split
      · exact failsBy_ok _ _
      · exact assign_runs run line name expression
  | destructure line names triple arguments =>
      rw [statement]
      split
      · exact failsBy_ok _ _
      · exact destructure_runs run line names triple arguments

theorem block_runs (guard : Option Guard) (run : Run α) (statements : List Statement) :
    (block guard run statements).Runs := by
  cases statements with
  | nil => exact failsBy_ok _ _
  | cons first rest =>
      rw [block]
      exact failsBy_bind (statement_runs guard run first) fun run _ => block_runs guard run rest

theorem chain_runs (parent : Option Flags) (run : Run α) (taken : Flags)
    (branches : List Branch) : (chain parent run taken branches).Runs := by
  cases branches with
  | nil => exact failsBy_ok _ _
  | cons first rest =>
      obtain ⟨line, text, body⟩ := first
      rw [chain]
      refine failsBy_bind (condition_runs run line text) fun state _ => ?_
      refine failsBy_bind (block_runs _ _ body) fun run _ => ?_
      exact chain_runs parent run _ rest

end

end Script.Run

theorem Script.execute_runs (statements : List Statement) (prices : Prices α) (params : Params α) :
    (execute statements prices params).Runs :=
  failsBy_bind (Run.start_runs prices params) fun run _ => Run.block_runs none run statements

/-! ## Presets -/

namespace Preset

theorem closeAverage_runs (prices : Prices α) (params : Params α) (name : String) :
    (closeAverage prices params name).Runs := by
  refine failsBy_bind (Scalar.period_runs _ _) fun period _ => ?_
  exact Series.average_runs _ period prices.close

theorem build_runs (kind : StrategyKind) (prices : Prices α) (params : Params α) :
    (build kind prices params).Runs := by
  cases kind with
  | dualAverage =>
      refine failsBy_bind (closeAverage_runs prices params _) fun fast _ => ?_
      exact failsBy_bind (closeAverage_runs prices params _) fun slow _ => failsBy_ok _ _
  | tripleAverage =>
      refine failsBy_bind (closeAverage_runs prices params _) fun fast _ => ?_
      refine failsBy_bind (closeAverage_runs prices params _) fun mid _ => ?_
      exact failsBy_bind (closeAverage_runs prices params _) fun slow _ => failsBy_ok _ _
  | strength =>
      refine failsBy_bind (Scalar.period_runs _ _) fun period _ => ?_
      refine failsBy_bind (Scalar.toReal_runs _) fun oversold _ => ?_
      exact failsBy_bind (Scalar.toReal_runs _) fun overbought _ => failsBy_ok _ _
  | convergence =>
      refine failsBy_bind (Scalar.period_runs _ _) fun fast _ => ?_
      refine failsBy_bind (Scalar.period_runs _ _) fun slow _ => ?_
      exact failsBy_bind (Scalar.period_runs _ _) fun signal _ => failsBy_ok _ _
  | bands =>
      refine failsBy_bind (Scalar.period_runs _ _) fun period _ => ?_
      exact failsBy_bind (Scalar.toReal_runs _) fun width _ => failsBy_ok _ _

end Preset

/-! ## Reports -/

theorem Simulation.entryAt_runs {β : Type} (column : List β) (index : Int) :
    (entryAt column index).Runs := by
  rw [entryAt]
  generalize (if index < 0 then index + column.length else index) = place
  split
  · exact failsBy_error trivial
  · split
    · exact failsBy_ok _ _
    · exact failsBy_error trivial

theorem Simulation.tradeOf_runs (prices : Prices α) (asset : Option (Asset α)) (leg : Leg) :
    (tradeOf prices asset leg).Runs := by
  refine failsBy_bind (entryAt_runs _ _) fun entryPrice _ => ?_
  refine failsBy_bind (entryAt_runs _ _) fun exitPrice _ => ?_
  split
  · exact failsBy_error trivial
  · refine failsBy_bind (entryAt_runs _ _) fun entryTimestamp _ => ?_
    exact failsBy_bind (entryAt_runs _ _) fun exitTimestamp _ => failsBy_ok _ _

theorem Simulation.tradesOf_runs (prices : Prices α) (asset : Option (Asset α))
    (legs : List Leg) : (tradesOf prices asset legs).Runs := by
  induction legs with
  | nil => exact failsBy_ok _ _
  | cons leg rest ih =>
      refine failsBy_bind (tradeOf_runs prices asset leg) fun trade _ => ?_
      exact failsBy_bind ih fun trades _ => failsBy_ok _ _

theorem Summary.years_runs (first last : Int) : (years first last : Outcome α).Runs := by
  rw [years]
  split
  · exact failsBy_ok _ _
  · exact failsBy_error trivial

theorem Summary.metrics_runs (trades : List (Trade α)) (equity : Series α)
    (timestamps : List Int) : (metrics trades equity timestamps).Runs := by
  rw [metrics]
  split
  · exact failsBy_ok _ _
  · refine failsBy_bind (Simulation.entryAt_runs _ _) fun last _ => ?_
    refine failsBy_bind (Simulation.entryAt_runs _ _) fun final _ => ?_
    refine failsBy_bind (Simulation.entryAt_runs _ _) fun initial _ => ?_
    exact failsBy_bind (years_runs initial final) fun span _ => failsBy_ok _ _

theorem Report.ofSignals_runs (prices : Prices α) (signals : List (SignalKind × Flags))
    (fromFlat : Bool) (params : Params α) (asset : Option (Asset α)) :
    (ofSignals prices signals fromFlat params asset).Runs := by
  have hsimulated : (Simulation.simulate prices signals asset fromFlat).Runs :=
    failsBy_bind (Simulation.tradesOf_runs prices asset _) fun trades _ => failsBy_ok _ _
  refine failsBy_bind hsimulated fun result _ => ?_
  refine failsBy_bind (Summary.metrics_runs _ _ _) fun metrics _ => ?_
  refine failsBy_bind ?_ fun monthly _ => failsBy_ok _ _
  rw [Summary.monthly]
  split
  · exact failsBy_ok _ _
  · exact failsBy_error trivial

/-! ## Searches -/

namespace Search

theorem runTarget_runs (prices : Prices α) (asset : Option (Asset α)) (params : Params α)
    (target : Target α) : (runTarget prices asset params target).Runs := by
  cases target with
  | preset kind =>
      exact failsBy_bind (Preset.build_runs kind prices _) fun rules _ =>
        Report.ofSignals_runs prices _ _ _ asset
  | script statements defaults =>
      exact failsBy_bind (Script.execute_runs statements prices _) fun run _ =>
        Report.ofSignals_runs prices _ _ _ asset

theorem isOrdered_runs (kind : String) (params : Params α) : (isOrdered kind params).Runs := by
  have hperiod (names : List String) : (periodUnder names params).Runs := by
    rw [periodUnder]
    split
    · exact Scalar.toReal?_runs _
    · exact failsBy_ok _ _
  refine failsBy_bind (hperiod fastNames) fun fast _ => ?_
  refine failsBy_bind (hperiod slowNames) fun slow _ => ?_
  split
  · exact failsBy_bind (hperiod midNames) fun mid _ => failsBy_ok _ _
  · exact failsBy_ok _ _

theorem visit_runs (plan : Plan α) (progress : Progress α) (combination : Params α) :
    (visit plan progress combination).Runs := by
  refine failsBy_bind (isOrdered_runs plan.kind _) fun ordered _ => ?_
  split
  · exact failsBy_bind (runTarget_runs _ _ _ _) fun report _ => failsBy_ok _ _
  · exact failsBy_ok _ _

theorem foldlM_visit_runs (plan : Plan α) (progress : Progress α) (group : List (Params α)) :
    (group.foldlM (visit plan) progress).Runs := by
  induction group generalizing progress with
  | nil => exact failsBy_ok _ _
  | cons combination rest ih =>
      rw [List.foldlM_cons]
      exact failsBy_bind (visit_runs plan progress combination) fun progress _ => ih progress

theorem visitGroups_runs {κ : Type} (late : StateM κ Bool) (plan : Plan α)
    (groups : List (List (Params α))) (progress : Progress α) (clock : κ) :
    ((visitGroups late plan groups progress).run clock).1.Runs := by
  induction groups generalizing progress clock with
  | nil => exact failsBy_ok _ _
  | cons group rest ih =>
      rw [run_visitGroups_cons]
      dsimp only
      split
      · exact failsBy_ok _ _
      · split
        · exact ih _ _
        · next fault hfault =>
            exact failsBy_error (foldlM_visit_runs plan progress group fault hfault)

theorem fault_ofRun_of_sampleFrom {σ : Type} {draw : RandomSource σ} {axes : List (Axis α)}
    {fuel missing : Nat} {seen : List (Params α)} {state : σ} {fault : Fault}
    (hfault : (sampleFrom draw axes fuel missing seen state).fault = some fault) :
    fault.OfRun := by
  induction fuel generalizing missing seen state with
  | zero =>
      cases missing with
      | zero => cases hfault
      | succ missing =>
          cases hfault
          trivial
  | succ fuel ih =>
      cases missing with
      | zero => cases hfault
      | succ missing =>
          rw [sampleFrom] at hfault
          dsimp only at hfault
          split at hfault
          · cases hfault
            trivial
          · split at hfault
            · exact ih hfault
            · exact ih hfault

theorem fault_ofRun_of_enumerate {σ : Type} {draw : RandomSource σ} {seed : σ}
    {axes : List (Axis α)} {cap : Int} {fault : Fault}
    (hfault : (enumerate draw seed axes cap).fault = some fault) : fault.OfRun := by
  rw [enumerate] at hfault
  split at hfault
  · cases hfault
  · exact fault_ofRun_of_sampleFrom hfault

/-- A search ends in the fault of a run, unless it is refused before any backtest. -/
theorem optimize_failsBy {κ σ : Type} (now : StateM κ α) (draw : RandomSource σ) (seed : σ)
    (bars : List (Bar α)) (settings : Settings α) (clock : κ) :
    FailsBy (fun fault => fault.OfRun ∨ planOf bars settings = .error fault)
      ((optimize now draw seed bars settings).run clock).1.outcome := by
  cases hplan : planOf bars settings with
  | error fault =>
      rw [optimize, hplan]
      exact failsBy_error (.inr rfl)
  | ok plan =>
      have hmetric : plan.settings.metric ∈ Metrics.names :=
        (planOf_eq_ok hplan).1 ▸ mem_names_of_planOf hplan
      rw [optimize_of_planOf hplan, run_explore]
      refine FailsBy.mono ?_ fun fault => .inl
      split
      · next fault hfault => exact failsBy_error (visitGroups_runs _ _ _ _ _ fault hfault)
      · rw [findingsOf_eq hmetric]
        exact failsBy_ok _ _
      · split
        · next fault hfault => exact failsBy_error (fault_ofRun_of_enumerate hfault)
        · rw [findingsOf_eq hmetric]
          exact failsBy_ok _ _

end Search

end Backtest
