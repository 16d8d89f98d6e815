import Backtest.Report
import Backtest.Search.Combination
import Backtest.Search.Ordering

/-!
# Parameter search

A search backtests the combinations of its ranges, skips those whose periods are out of order, drops
results without a trade, and ranks the others.  A deadline is checked before each group of fifty
combinations; reading the clock is the only effect, in whatever monad the caller reads it.
-/

namespace Backtest

namespace Search

variable {α : Type} [Arith α]

/-- Everything that a search needs besides the bars.  A strategy without a script selects a preset;
with a script it only says which periods must rise. -/
structure Settings (α : Type) where
  strategy : String
  script : Option String
  ranges : List (Range α)
  fixed : Params α
  cap : Int
  metric : String
  top : Int
  asset : Option (Asset α)
  /-- Milliseconds since 1970-01-01. -/
  deadline : Option (Number α)

/-- What is searched: a preset, or a parsed script with its defaults. -/
inductive Target (α : Type) where
  | preset (kind : StrategyKind)
  | script (statements : List Script.Statement) (defaults : Params α)

/-- The script of a search, if there is one and it is not empty. -/
def scriptOf (settings : Settings α) : Option String :=
  settings.script.filter fun code => !code.isEmpty

def targetOf (settings : Settings α) : Outcome (Target α) :=
  match scriptOf settings with
  | some code => .ok (.script (Script.parse code.toList) (Input.scriptDefaults code.toList))
  | none => do pure (.preset (← StrategyKind.ofName settings.strategy))

/-- Backtests one set of parameters. -/
def runTarget (prices : Prices α) (asset : Option (Asset α)) (params : Params α) :
    Target α → Outcome (Report α)
  | .preset kind => Report.ofPreset prices kind params asset
  | .script statements defaults =>
      Report.ofStatements prices statements (Record.overlay defaults params) asset

/-- The kind of rules that decides which periods must rise. -/
def orderKind (settings : Settings α) : String :=
  if settings.strategy.isEmpty then
    match scriptOf settings with
    | some code => (Input.Strategy.ofCode code : Input.Strategy α).logic.name
    | none => Input.Logic.custom.name
  else settings.strategy

/-- How far a search has come: the number of backtests, and the results with trades. -/
structure Progress (α : Type) where
  tested : Nat
  results : List (Report α)

/-- A checked search. -/
structure Plan (α : Type) where
  prices : Prices α
  axes : List (Axis α)
  target : Target α
  kind : String
  settings : Settings α

/-- Backtests a combination if its periods are in order. -/
def visit (plan : Plan α) (progress : Progress α) (combination : Params α) :
    Outcome (Progress α) := do
  let params := Record.overlay plan.settings.fixed combination
  if ← isOrdered plan.kind params then
    let report ← runTarget plan.prices plan.settings.asset params plan.target
    pure ⟨progress.tested + 1,
      if 0 < report.metrics.trades then progress.results ++ [report] else progress.results⟩
  else pure progress

def groupLength : Nat := 50

/-- Cuts a list into groups of a length, the last of which may be shorter; at most `fuel` groups. -/
def groupsOf {β : Type} (length : Nat) : Nat → List β → List (List β)
  | 0, _ => []
  | _, [] => []
  | fuel + 1, xs => xs.take length :: groupsOf length fuel (xs.drop length)

/-- Visits combinations group by group until it is late; tells whether it was. -/
def visitGroups {m : Type → Type} [Monad m] (late : m Bool) (plan : Plan α) :
    List (List (Params α)) → Progress α → m (Outcome (Progress α × Bool))
  | [], progress => pure (.ok (progress, false))
  | group :: rest, progress => do
      if ← late then pure (.ok (progress, true))
      else match group.foldlM (visit plan) progress with
        | .ok progress => visitGroups late plan rest progress
        | .error fault => pure (.error fault)

/-- The test for a deadline, on a clock that gives seconds; without a deadline the clock is not
read. -/
def isLate {m : Type → Type} [Monad m] (now : m α) (deadline : Option (Number α)) :
    m Bool :=
  match deadline with
  | none => pure false
  | some limit => do
      let seconds ← now
      pure (limit.below (.real (seconds * Arith.ofNat 1000)))

/-- The names and values of the enabled ranges. -/
def axesOf (ranges : List (Range α)) : Outcome (List (Axis α)) :=
  (ranges.filter (·.enabled)).mapM fun range => do pure (range.name, ← expand range)

/-- Checks a search before any backtest. -/
def planOf (bars : List (Bar α)) (settings : Settings α) : Outcome (Plan α) := do
  if !Metrics.names.contains settings.metric then
    throw (.unknownSortKey settings.metric Metrics.names)
  let prices ← Prices.ofValidBars bars
  let axes ← axesOf settings.ranges
  let target ← targetOf settings
  pure ⟨prices, axes, target, orderKind settings, settings⟩

/-- The warning that a grid is sampled. -/
def samplingWarnings (plan : Plan α) : List String :=
  let total := size plan.axes
  let cap := plan.settings.cap
  if cap < total then
    ["grid has " ++ toString total ++ " combinations (> " ++ toString cap ++ "); sampling " ++
      toString cap ++ " at random"]
  else []

/-- A result of a search with its place, which counts from one, and its score. -/
structure Ranked (α : Type) where
  place : Nat
  report : Report α
  score : α

structure Findings (α : Type) where
  results : List (Ranked α)
  tested : Nat
  timedOut : Bool

def findingsOf (settings : Settings α) (progress : Progress α) (timedOut : Bool) :
    Outcome (Findings α) := do
  let ranked ← rank (·.metrics) settings.metric progress.results
  let best := top settings.top ranked
  pure ⟨best.zipIdx.map fun entry => ⟨entry.2 + 1, entry.1.1, entry.1.2⟩, progress.tested, timedOut⟩

/-- Visits the combinations of a plan and ranks the results. -/
def explore {m : Type → Type} [Monad m] (now : m α) (enumeration : Enumeration α) (plan : Plan α) :
    m (Outcome (Findings α)) := do
  let groups := groupsOf groupLength enumeration.combinations.length enumeration.combinations
  match ← visitGroups (isLate now plan.settings.deadline) plan groups ⟨0, []⟩ with
  | .error fault => pure (.error fault)
  | .ok (progress, true) => pure (findingsOf plan.settings progress true)
  | .ok (progress, false) => match enumeration.fault with
    | some fault => pure (.error fault)
    | none => pure (findingsOf plan.settings progress false)

/-- Runs a search. -/
def optimize {m : Type → Type} [Monad m] {σ : Type} (now : m α) (draw : RandomSource σ) (seed : σ)
    (bars : List (Bar α)) (settings : Settings α) : m (Warned (Findings α)) := do
  match planOf bars settings with
  | .error fault => pure ⟨[], .error fault⟩
  | .ok plan =>
      let found ← explore now (enumerate draw seed plan.axes settings.cap) plan
      pure ⟨samplingWarnings plan, found⟩

end Search

end Backtest
