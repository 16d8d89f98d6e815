import Backtest.Text.Trim

/-!
# Options of the command line

The tasks of the command line and the options that each of them knows.  An option has a long
spelling and perhaps one of a single letter, and it takes one value or none.
-/

namespace Backtest.Command

open Text

inductive Task where
  | backtest
  | optimize
  deriving DecidableEq

namespace Task

def name : Task → String
  | .backtest => "backtest"
  | .optimize => "optimize"

def all : List Task := [.backtest, .optimize]

def ofName? (name : String) : Option Task := all.find? fun task => task.name == name

end Task

inductive Key where
  | help
  | preset
  | script
  | param
  | demo
  | table
  | bars
  | demoSeed
  | timeframe
  | first
  | last
  | asset
  | pointValue
  | range
  | cap
  | metric
  | top
  | timeout
  | seed
  deriving DecidableEq

namespace Key

/-- The spelling of a single letter. -/
def letter? : Key → Option Char
  | .help => some 'h'
  | .param => some 'p'
  | .bars => some 'n'
  | .timeframe => some 't'
  | .range => some 'r'
  | _ => none

/-- The long spelling. -/
def long : Key → String
  | .help => "--help"
  | .preset => "--preset"
  | .script => "--script"
  | .param => "--param"
  | .demo => "--demo"
  | .table => "--csv"
  | .bars => "--bars"
  | .demoSeed => "--data-seed"
  | .timeframe => "--timeframe"
  | .first => "--start"
  | .last => "--end"
  | .asset => "--asset"
  | .pointValue => "--point-value"
  | .range => "--range"
  | .cap => "--max-combos"
  | .metric => "--sort"
  | .top => "--top"
  | .timeout => "--timeout"
  | .seed => "--seed"

def spellings (key : Key) : List String :=
  match key.letter? with
  | some letter => [String.ofList ['-', letter], key.long]
  | none => [key.long]

/-- The name of an option in messages. -/
def label (key : Key) : String := join "/" key.spellings

def takesValue : Key → Bool
  | .help | .demo => false
  | _ => true

/-- The option with a spelling. -/
def spelled? (keys : List Key) (word : String) : Option Key :=
  keys.find? fun key => key.spellings.contains word

/-- The option with a letter. -/
def lettered? (keys : List Key) (letter : Char) : Option Key :=
  keys.find? fun key => key.letter? == some letter

end Key

/-- The options before the task. -/
def globalKeys : List Key := [.help]

/-- The options of a task, in the order in which messages list them. -/
def Task.keys (task : Task) : List Key :=
  [.help, .preset, .script, .param, .demo, .table, .bars, .demoSeed, .timeframe, .first, .last,
    .asset, .pointValue] ++
    match task with
    | .backtest => []
    | .optimize => [.range, .cap, .metric, .top, .timeout, .seed]

end Backtest.Command
