import Backtest.Input.Param
import Backtest.Preset
import Backtest.Summary.Metrics

/-!
# Order of periods, order of results

A search skips combinations whose periods are out of order for their kind of rules, and ranks
results by one of their metrics.
-/

namespace Backtest.Search

variable {α : Type} [Arith α]

def fastNames : List String := ["fastLength", "fast_len", "fast", "fastPeriod", "macdFast"]

def midNames : List String := ["midLength", "mid_len", "mid", "midPeriod"]

def slowNames : List String := ["slowLength", "slow_len", "slow", "slowPeriod", "macdSlow"]

/-- The number of the first of some names that is there, if it stands for a number. -/
def periodUnder (names : List String) (params : Params α) : Outcome (Option α) :=
  match names.findSome? fun name => params.get? name with
  | some value => value.toReal?
  | none => .ok none

/-- Two periods that are not in rising order. -/
def outOfOrder (first second : Option α) : Bool :=
  match first, second with
  | some x, some y => Arith.atMost y x
  | _, _ => false

/-- The kinds of rules whose fast and slow periods must rise. -/
def pairKinds : List String :=
  [StrategyKind.dualAverage.name, StrategyKind.convergence.name, Input.Logic.custom.name]

/-- The periods of a combination rise as the kind of rules asks. -/
def isOrdered (kind : String) (params : Params α) : Outcome Bool := do
  let fast ← periodUnder fastNames params
  let slow ← periodUnder slowNames params
  if kind = StrategyKind.tripleAverage.name then
    let mid ← periodUnder midNames params
    pure (!outOfOrder fast mid && !outOfOrder mid slow)
  else pure (!(pairKinds.contains kind && outOfOrder fast slow))

/-- The entries of a list in falling order of a score; equal scores keep their order. -/
def rankBy {β : Type} (score : β → α) (results : List β) : List β :=
  results.mergeSort fun first second => Arith.atMost (score second) (score first)

/-- Results with their scores in a metric. -/
def scored {β : Type} (metrics : β → Metrics α) (metric : String) (results : List β) :
    Outcome (List (β × α)) :=
  results.mapM fun result => match (metrics result).get? metric with
    | some score => .ok (result, score)
    | none => .error (.unknownMetric metric)

/-- Results ranked by a metric, the best first, with their scores. -/
def rank {β : Type} (metrics : β → Metrics α) (metric : String) (results : List β) :
    Outcome (List (β × α)) := do
  pure (rankBy (·.2) (← scored metrics metric results))

/-- The first entries of a list; a negative count leaves out as many at the end. -/
def top {β : Type} (count : Int) (results : List β) : List β :=
  if count < 0 then results.take (results.length - count.natAbs) else results.take count.toNat

end Backtest.Search
