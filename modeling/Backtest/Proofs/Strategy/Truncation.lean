import Backtest.Preset
import Backtest.Proofs.Script.Truncation

/-!
# Strategies over the first bars

The rules of a preset over the first bars of a price table are the first part of its rules over the
whole table.  Together with the law for scripts this says that no strategy looks ahead: whatever it
asks for at a bar is settled by the bars up to that one.
-/

namespace Backtest

open Series

namespace Preset

variable {α : Type} (count : Nat)

/-- The first bars of each signal. -/
def Rules.take (rules : Rules) : Rules :=
  ⟨rules.signals.map fun signal => (signal.1, signal.2.take count), rules.fromFlat⟩

variable [Arith α]

theorem allDefined_take (series : List (Series α)) :
    allDefined (series.map (List.take count)) = (allDefined series).take count := by
  induction series with
  | nil => exact List.take_nil.symm
  | cons xs rest ih =>
      cases rest with
      | nil => exact List.map_take
      | cons ys others =>
          change List.zipWith _ (xs.take count) (allDefined ((ys :: others).map _)) =
            (List.zipWith _ xs (allDefined (ys :: others))).take count
          rw [ih, List.take_zipWith]

theorem ready_take (series : List (Series α)) :
    ready (series.map (List.take count)) = (ready series).take count := by
  rw [ready, allDefined_take, stepwise_take, ready]

omit [Arith α] in
theorem readyWhere_take (ok : Flags) (test : α → α → Bool) (xs ys : Series α) :
    readyWhere (ok.take count) test (xs.take count) (ys.take count) =
      (readyWhere ok test xs ys).take count := by
  rw [readyWhere, readyWhere, ← List.take_zipWith, ← List.take_zipWith]

theorem sides_take (xs ys : Series α) :
    sides (xs.take count) (ys.take count) = (sides xs ys).take count := by
  have hready : ready [xs.take count, ys.take count] = _ := ready_take count [xs, ys]
  simp only [sides, Rules.take, List.map_cons, List.map_nil, hready, readyWhere_take]

variable (prices : Prices α) (params : Params α)

theorem closeAverage_take (name : String) :
    closeAverage (prices.take count) params name =
      (closeAverage prices params name).map (List.take count) := by
  rw [closeAverage, closeAverage]
  cases periodOf params name 14 with
  | error fault => rfl
  | ok period => exact average_take ..

theorem dualAverage_take :
    dualAverage (prices.take count) params =
      (dualAverage prices params).map (Rules.take count) := by
  rw [dualAverage, dualAverage, closeAverage_take, closeAverage_take]
  cases closeAverage prices params "fastLength" with
  | error fault => rfl
  | ok fast =>
      cases closeAverage prices params "slowLength" with
      | error fault => rfl
      | ok slow => exact congrArg Except.ok (sides_take ..)

theorem tripleAverage_take :
    tripleAverage (prices.take count) params =
      (tripleAverage prices params).map (Rules.take count) := by
  rw [tripleAverage, tripleAverage, closeAverage_take, closeAverage_take, closeAverage_take]
  cases closeAverage prices params "fastLength" with
  | error fault => rfl
  | ok fast =>
      cases closeAverage prices params "midLength" with
      | error fault => rfl
      | ok mid =>
          cases closeAverage prices params "slowLength" with
          | error fault => rfl
          | ok slow =>
              have hready : ready [fast.take count, mid.take count, slow.take count] = _ :=
                ready_take count [fast, mid, slow]
              simp only [Except.map, bind, Except.bind, pure, Except.pure, Rules.take,
                List.map_cons, List.map_nil, hready, readyWhere_take, ← List.take_zipWith]

theorem strength_take :
    strength (prices.take count) params = (strength prices params).map (Rules.take count) := by
  rw [strength, strength]
  cases periodOf params "rsiPeriod" 14 with
  | error fault => rfl
  | ok period =>
      cases (param params "oversold").toReal with
      | error fault => rfl
      | ok oversold =>
          cases (param params "overbought").toReal with
          | error fault => rfl
          | ok overbought =>
              have hline : relativeStrength period (prices.take count).close = _ :=
                relativeStrength_take period count prices.close
              have hready : ready [(relativeStrength period prices.close).take count] = _ :=
                ready_take count [relativeStrength period prices.close]
              simp only [Except.map, bind, Except.bind, pure, Except.pure, Rules.take,
                List.map_cons, List.map_nil, hline, hready, List.length_take,
                ← List.take_replicate, crossover_take, crossunder_take, ← List.take_zipWith]

theorem convergence_take :
    convergence (prices.take count) params =
      (convergence prices params).map (Rules.take count) := by
  rw [convergence, convergence]
  cases periodOf params "fastLength" 14 with
  | error fault => rfl
  | ok fast =>
      cases periodOf params "slowLength" 14 with
      | error fault => rfl
      | ok slow =>
          cases periodOf params "signalLength" 14 with
          | error fault => rfl
          | ok signal =>
              have hlines : Series.convergence fast slow signal (prices.take count).close = _ :=
                Series.convergence_take fast slow signal count prices.close
              simp only [Except.map, bind, Except.bind, pure, Except.pure, hlines]
              exact congrArg Except.ok (sides_take ..)

theorem bands_take :
    bands (prices.take count) params = (bands prices params).map (Rules.take count) := by
  rw [bands, bands]
  cases periodOf params "bbLength" 20 with
  | error fault => rfl
  | ok period =>
      cases (param params "bbMult").toReal with
      | error fault => rfl
      | ok width =>
          let lines := Series.bands period width prices.close
          have hlines : Series.bands period width (prices.close.take count) = _ :=
            Series.bands_take period count width prices.close
          have hready : ready [lines.upper.take count, lines.basis.take count,
              lines.lower.take count] = _ :=
            ready_take count [lines.upper, lines.basis, lines.lower]
          simp only [lines] at hready
          simp only [Except.map, bind, Except.bind, pure, Except.pure, Rules.take, Prices.take,
            Bands.take, List.map_cons, List.map_nil, hlines, hready, readyWhere_take]

/-- The rules of a preset over the first bars are the first part of its rules over all of them. -/
theorem build_take (kind : StrategyKind) :
    build kind (prices.take count) params = (build kind prices params).map (Rules.take count) := by
  cases kind with
  | dualAverage => exact dualAverage_take ..
  | tripleAverage => exact tripleAverage_take ..
  | strength => exact strength_take ..
  | convergence => exact convergence_take ..
  | bands => exact bands_take ..

end Preset

/-- No strategy looks ahead.  Over the first bars of a table a script has the outcome that it has
over the whole table, with the same signals and the same lines reported, and with each condition and
each value of a name cut to those bars; and each preset gives the same signals, cut likewise. -/
theorem strategies_do_not_look_ahead {α : Type} [Arith α] (prices : Prices α) (params : Params α)
    (count : Nat) :
    (∀ code, Script.run code (prices.take count) params =
        (Script.run code prices params).map (Script.Run.take count)) ∧
      (∀ run : Script.Run α,
        (run.take count).signals = run.signals ∧
        (run.take count).unresolved = run.unresolved ∧
        (run.take count).skipped = run.skipped ∧
        (run.take count).conditions =
          run.conditions.map (fun entry => (entry.1, entry.2.take count)) ∧
        ∀ name, (run.take count).env.value? name =
          (run.env.value? name).map (Value.take count)) ∧
      ∀ kind, Preset.build kind (prices.take count) params =
        (Preset.build kind prices params).map (Preset.Rules.take count) := by
  refine ⟨fun code => Script.run_take count code prices params, fun run => ?_,
    fun kind => Preset.build_take count prices params kind⟩
  exact ⟨rfl, rfl, rfl, Script.Run.conditions_take count run,
    Environment.value?_take count run.env⟩

end Backtest
