import Backtest.Command.Option
import Backtest.Fault

/-!
# Refusals

What can be wrong with a command line before anything is run, one constructor for each cause;
`Complaint.message` holds the wording.
-/

namespace Backtest.Command

open Text

inductive Complaint where
  | ambiguous (word : String) (candidates : List String)
  | missingValue (key : Key)
  | unwantedValue (key : Key) (value : String)
  | notAnInteger (key : Key) (value : String)
  | notANumber (key : Key) (value : String)
  | notAChoice (key : Key) (value : String) (choices : List String)
  | malformed (key : Key) (fault : Fault)
  | excluded (key other : Key)
  | missingOneOf (keys : List Key)
  | missingTask
  | unknownTask (name : String)
  | unrecognized (words : List String)
  deriving DecidableEq

/-- The choices of a closed list, as messages show them. -/
def choiceText (value : String) (choices : List String) : String :=
  "invalid choice: " ++ quoted value ++ " (choose from " ++ join ", " (choices.map quoted) ++ ")"

/-- A message about an option. -/
def aboutOption (key : Key) (text : String) : String := "argument " ++ key.label ++ ": " ++ text

def Complaint.message : Complaint → String
  | .ambiguous word candidates =>
      "ambiguous option: " ++ word ++ " could match " ++ join ", " candidates
  | .missingValue key => aboutOption key "expected one argument"
  | .unwantedValue key value => aboutOption key ("ignored explicit argument " ++ quoted value)
  | .notAnInteger key value => aboutOption key ("invalid int value: " ++ quoted value)
  | .notANumber key value => aboutOption key ("invalid float value: " ++ quoted value)
  | .notAChoice key value choices => aboutOption key (choiceText value choices)
  | .malformed key fault => aboutOption key fault.message
  | .excluded key other => aboutOption key ("not allowed with argument " ++ other.label)
  | .missingOneOf keys =>
      "one of the arguments " ++ join " " (keys.map Key.label) ++ " is required"
  | .missingTask => "the following arguments are required: command"
  | .unknownTask name => "argument command: " ++ choiceText name (Task.all.map Task.name)
  | .unrecognized words => "unrecognized arguments: " ++ join " " words

def programName : String := "stratopt"

/-- A complaint and the task whose options were read when it came up. -/
structure Refusal where
  task : Option Task
  complaint : Complaint
  deriving DecidableEq

def Refusal.message (refusal : Refusal) : String :=
  let place := match refusal.task with
    | some task => programName ++ " " ++ task.name
    | none => programName
  place ++ ": error: " ++ refusal.complaint.message

end Backtest.Command
