import Backtest.Command.Value
import Backtest.Command.Word
import Backtest.Preset
import Backtest.Simulation.Trade
import Backtest.Summary.Metrics

/-!
# Requests

What a command line asks for.  A request names what to run, where the bars come from, and everything
that has a default.  `Request.ofWords` reads one from the words of a command line.
-/

namespace Backtest.Command

/-- What is run: a preset, or the script in a file. -/
inductive Subject where
  | preset (name : String)
  | script (file : String)
  deriving DecidableEq

/-- Where the bars come from: a random walk, or the table in a file. -/
inductive Source where
  | demo
  | table (file : String)
  deriving DecidableEq

/-- The values of all options.  Subject and source have no default. -/
structure Form (α : Type) where
  subject : Option Subject
  source : Option Source
  params : List (String × Scalar α)
  bars : Int
  demoSeed : Int
  timeframe : String
  first : Option String
  last : Option String
  asset : Asset α
  ranges : List (Range α)
  cap : Int
  metric : String
  top : Int
  timeout : Option α
  seed : Option Int

variable {α : Type} [Arith α]

/-- The form before any option; the seed of a search may come from outside the command line. -/
def Form.blank (seed : Option Int) : Form α where
  subject := none
  source := none
  params := []
  bars := 2000
  demoSeed := 42
  timeframe := "1h"
  first := none
  last := none
  asset := ⟨.percentage, Arith.one⟩
  ranges := []
  cap := 1000
  metric := "total_return_pct"
  top := 20
  timeout := none
  seed := seed

/-- The integer that an option gives. -/
def integerOf (key : Key) (value : String) : Except Complaint Int :=
  match Decimal.integer? value.toList with
  | some n => .ok n
  | none => .error (.notAnInteger key value)

/-- The number that an option gives. -/
def numberOf (key : Key) (value : String) : Except Complaint α :=
  match Decimal.number? value.toList with
  | some x => .ok x
  | none => .error (.notANumber key value)

/-- The value of an option that must be one of a closed list. -/
def chosen (key : Key) (choices : List String) (value : String) : Except Complaint String :=
  if choices.contains value then .ok value else .error (.notAChoice key value choices)

/-- The value that a reader of texts finds for an option. -/
def readBy {β : Type} (read : String → Outcome β) (key : Key) (value : String) :
    Except Complaint β :=
  (read value).mapError (.malformed key)

namespace Form

/-- Sets the subject, which excludes subjects of the other kind. -/
def putSubject (form : Form α) (subject : Subject) : Except Complaint (Form α) :=
  match subject, form.subject with
  | .preset _, some (.script _) => .error (.excluded .preset .script)
  | .script _, some (.preset _) => .error (.excluded .script .preset)
  | _, _ => .ok { form with subject := some subject }

/-- Sets the source, which excludes sources of the other kind. -/
def putSource (form : Form α) (source : Source) : Except Complaint (Form α) :=
  match source, form.source with
  | .demo, some (.table _) => .error (.excluded .demo .table)
  | .table _, some .demo => .error (.excluded .table .demo)
  | _, _ => .ok { form with source := some source }

/-- Gives an option a value.  Parameters and ranges add up; of every other option the last one
counts. -/
def use (key : Key) (value : String) (form : Form α) : Except Complaint (Form α) := do
  match key with
  | .help => pure form
  | .preset =>
      form.putSubject (.preset (← chosen key (StrategyKind.all.map StrategyKind.name) value))
  | .script => form.putSubject (.script value)
  | .param => pure { form with params := form.params ++ [← readBy assignmentOf key value] }
  | .demo => form.putSource .demo
  | .table => form.putSource (.table value)
  | .bars => pure { form with bars := ← integerOf key value }
  | .demoSeed => pure { form with demoSeed := ← integerOf key value }
  | .timeframe => pure { form with timeframe := value }
  | .first => pure { form with first := some value }
  | .last => pure { form with last := some value }
  | .asset => match AssetKind.ofName? value with
    | some kind => pure { form with asset := { form.asset with kind := kind } }
    | none => throw (.notAChoice key value (AssetKind.all.map AssetKind.name))
  | .pointValue =>
      pure { form with asset := { form.asset with pointValue := ← numberOf key value } }
  | .range => pure { form with ranges := form.ranges ++ [← readBy rangeOf key value] }
  | .cap => pure { form with cap := ← integerOf key value }
  | .metric => pure { form with metric := ← chosen key Metrics.names value }
  | .top => pure { form with top := ← integerOf key value }
  | .timeout => pure { form with timeout := some (← numberOf key value) }
  | .seed => pure { form with seed := some (← integerOf key value) }

end Form

/-- A complete form with the task that it is for. -/
structure Request (α : Type) where
  task : Task
  subject : Subject
  source : Source
  form : Form α

/-- The request of a form; subject and source must be there. -/
def Request.ofForm (task : Task) (form : Form α) : Except Complaint (Request α) :=
  match form.subject, form.source with
  | some subject, some source => .ok ⟨task, subject, source, form⟩
  | none, _ => .error (.missingOneOf [.preset, .script])
  | _, none => .error (.missingOneOf [.demo, .table])

/-- Why a command line is no request. -/
inductive Refused where
  | help (task : Option Task)
  | refusal (refusal : Refusal)

def Halt.at (task : Option Task) : Halt → Refused
  | .help => .help task
  | .complaint cause => .refusal ⟨task, cause⟩

/-- Reads the options of a task; gives back the words that belong to none of them. -/
def Request.ofTaskWords (task : Task) (words : List String) (seed : Option Int) :
    Except Halt (Request α × List String) := do
  let found ← (roles task.keys words).mapError .complaint
  let (form, others) ← useOptions task.keys Form.use found (Form.blank seed)
  let request ← (Request.ofForm task form).mapError .complaint
  pure (request, others)

/-- Reads the words of a command line.  Words that nothing uses are refused last of all. -/
def Request.ofWords (words : List String) (seed : Option Int) : Except Refused (Request α) := do
  let found ← (roles globalKeys words).mapError fun complaint => .refusal ⟨none, complaint⟩
  let (task, behind, before) ← (taskOf globalKeys found).mapError (Halt.at none)
  let (request, others) ← (Request.ofTaskWords task behind seed).mapError (Halt.at (some task))
  if (before ++ others).isEmpty then pure request
  else throw (.refusal ⟨none, .unrecognized (before ++ others)⟩)

end Backtest.Command
