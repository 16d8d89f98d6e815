import Backtest.Command.Display
import Backtest.Command.Folder
import Backtest.Command.Request
import Backtest.Input.Update
import Backtest.Market.Load
import Backtest.Market.Sample
import Backtest.Random

/-!
# Sessions of the command line

A session carries out a command line and leaves a transcript: the lines that it printed, the
warnings that it gave, and how it ended.  All that it needs of the world around it is a `Host`, so
that a session is a function of what the host answers.
-/

namespace Backtest.Command

/-- What a session asks of the world: two clocks in seconds, and the texts of files. -/
structure Host (m : Type → Type) where
  /-- The time since 1970-01-01. -/
  clock : m Float
  /-- The time since some fixed moment. -/
  stopwatch : m Float
  textOf : String → m (Except FileFlaw String)

structure Transcript where
  lines : List String
  warnings : List String

def Transcript.empty : Transcript := ⟨[], []⟩

/-- A part of a session; a fault leaves the transcript as it is. -/
abbrev Session (m : Type → Type) := ExceptT Fault (StateT Transcript m)

namespace Session

variable {m : Type → Type} [Monad m] {β : Type}

/-- Asks the host. -/
def ask (question : m β) : Session m β := fun transcript => do
  let answer ← question
  pure (.ok answer, transcript)

def sayAll (lines : List String) : Session m Unit :=
  modify fun transcript => { transcript with lines := transcript.lines ++ lines }

def say (line : String) : Session m Unit := sayAll [line]

def attempt (outcome : Outcome β) : Session m β := fun transcript => pure (outcome, transcript)

/-- Takes over the warnings of an outcome, then the outcome. -/
def attemptWarned (found : Warned β) : Session m β := do
  modify fun transcript => { transcript with warnings := transcript.warnings ++ found.warnings }
  attempt found.outcome

end Session

open Session

variable {m : Type → Type} [Monad m]

/-- A text in which every line end is a line feed. -/
def withLineFeeds : List Char → List Char
  | [] => []
  | '\r' :: '\n' :: rest => '\n' :: withLineFeeds rest
  | c :: rest => (if c = '\r' then '\n' else c) :: withLineFeeds rest

/-- The script in a file. -/
def readScript (host : Host m) (file : String) : Session m String := do
  let path := tidyPath file
  match ← ask (host.textOf path) with
  | .ok text => pure (String.ofList (withLineFeeds text.toList))
  | .error flaw => throw (.unreadableScript flaw path)

/-- The bars of a random walk. -/
def demoBars (form : Form Float) : Session m (List (Bar Float)) := do
  sayAll ["", "[*] Generating synthetic data (" ++ toString form.bars ++ " " ++ form.timeframe ++
    " candles)..."]
  let bars ← attempt (Market.sample form.bars form.demoSeed form.timeframe Market.sampleStart)
  match bars.head?, bars.getLast? with
  | some first, some last =>
      say ("    Simulated price from " ++ shown 2 first.close ++ " to " ++ shown 2 last.close)
      pure bars
  | _, _ => throw .noSuchBar

/-- The bars of the table in a file, by rows. -/
def tableBars (host : Host m) (form : Form Float) (file : String) :
    Session m (List (Option (Bar Float))) := do
  sayAll ["", "[*] Loading data from " ++ file ++ "..."]
  match ← ask (host.textOf file) with
  | .error flaw => throw (.unreadableTable flaw file)
  | .ok text => do
      let table ← attemptWarned (Market.load text form.first form.last form.timeframe)
      attempt (Market.rowBars table)

/-- The bars that a request names.  A row of a table may have none. -/
def barsOf (host : Host m) (request : Request Float) : Session m (List (Option (Bar Float))) :=
  match request.source with
  | .demo => do pure ((← demoBars request.form).map some)
  | .table file => tableBars host request.form file

/-- The preset that a request names and the script that it has.  A script without a file name is
none. -/
def subjectOf (host : Host m) (request : Request Float) :
    Session m (Option String × Option String) :=
  match request.subject with
  | .preset name => pure (some name, none)
  | .script file =>
      if file.isEmpty then pure (none, none)
      else do pure (none, some (← readScript host file))

/-- The preset of a name; there must be one. -/
def presetOf (name : Option String) : Outcome StrategyKind :=
  match name with
  | some name => StrategyKind.ofName name
  | none => .error .noStrategy

/-- Runs one backtest and shows its report. -/
def runBacktest (host : Host m) (request : Request Float) (rows : List (Option (Bar Float))) :
    Session m Unit := do
  let start ← ask host.stopwatch
  let (preset, script) ← subjectOf host request
  let params := Record.ofEntries request.form.params
  let (title, report) ← match script with
    | some code => do
        let bars ← attempt (Market.completeBars rows)
        let report ← attempt (backtestScript bars code params (some request.form.asset))
        pure ("SCRIPT: " ++ (Input.Strategy.ofCode code : Input.Strategy Float).title, report)
    | none => do
        let kind ← attempt (presetOf preset)
        let bars ← attempt (Market.completeBars rows)
        let report ← attempt (backtestPreset bars kind.name params (some request.form.asset))
        pure ("PRESET: " ++ kind.name, report)
  say ("    Backtest done in " ++ shown 4 ((← ask host.stopwatch) - start) ++ "s")
  sayAll (reportLines title report)
  sayAll (monthlyLines report)

/-- The parameters of a preset that are numbers, as declared parameters. -/
def presetParams (kind : StrategyKind) : List (Input.Param Float) :=
  (Preset.defaults kind).filterMap fun (name, value) => match value with
    | .int _ => some ⟨name, name, .int, value, none, none, none, none⟩
    | .real _ => some ⟨name, name, .float, value, none, none, none, none⟩
    | _ => none

/-- The ranges to search: those that are given, or else those around the defaults of all parameters
that are not fixed. -/
def rangesOf (form : Form Float) (preset script : Option String) : Outcome (List (Range Float)) :=
  if !form.ranges.isEmpty then .ok form.ranges
  else do
    let params ← match script with
      | some code => pure (Input.params code.toList)
      | none => do pure (presetParams (← presetOf preset))
    let ranges ← Search.ofParams params
    pure (ranges.filter fun range => !form.params.any fun entry => entry.1 == range.name)

/-- The moment in milliseconds at which a search has to end. -/
def deadlineOf (host : Host m) (timeout : Option Float) : Session m (Option (Number Float)) :=
  match timeout with
  | none => pure none
  | some seconds =>
      if seconds == 0 then pure none
      else do pure (some (.real ((← ask host.clock) * 1000 + seconds * 1000)))

/-- The lines about the ranges of a search. -/
def rangeLines (ranges : List (Range Float)) : Outcome (List String) :=
  ranges.mapM fun range => do
    pure (rangeLine range.name (← range.least.toReal) (← range.greatest.toReal)
      (← range.step.toReal))

/-- Tells how a search went. -/
def sayFindings (form : Form Float) (script : Option String) (found : Search.Findings Float) :
    Session m Unit := do
  match found.results with
  | [] => sayAll ["", "    No combination produced a trade."]
  | best :: _ => do
      sayAll (rankedLines form.top form.metric found.results)
      sayAll (reportLines "BEST COMBINATION" best.report)
      match script with
      | none => pure ()
      | some code => do
          let code := code.toList
          let updated ← attempt (Input.updateCode code (Input.params code) best.report.params)
          sayAll ["", "  Script with best parameters:", "", String.ofList updated]

/-- The least time that the rate of a search is computed with. -/
def leastElapsed : Float := 0.0001

/-- Searches the best parameters and shows them. -/
def runOptimize (host : Host m) (request : Request Float) (rows : List (Option (Bar Float))) :
    Session m Unit := do
  let form := request.form
  let (preset, script) ← subjectOf host request
  let ranges ← attempt (rangesOf form preset script)
  let deadline ← deadlineOf host form.timeout
  let size ← attempt (Search.gridSize ranges)
  sayAll ["", "[*] Searching " ++ toString (min (size : Int) form.cap) ++ " of " ++ toString size ++
    " combinations..."]
  sayAll (← attempt (rangeLines ranges))
  let start ← ask host.stopwatch
  let settings : Search.Settings Float :=
    { strategy := preset.getD ""
      script := script
      ranges := ranges
      fixed := Record.ofEntries form.params
      cap := form.cap
      metric := form.metric
      top := form.top
      asset := some form.asset
      deadline := deadline }
  let seed := Random.start (form.seed.getD 0)
  let bars ← attempt (Market.completeBars rows)
  let found ← attemptWarned (← ask (Search.optimize host.clock Random.draw seed bars settings))
  let elapsed := (← ask host.stopwatch) - start
  let rate := Float.ofNat found.tested /
    (if elapsed < leastElapsed then leastElapsed else elapsed)
  sayAll ["    Done in " ++ shown 4 elapsed ++ "s (" ++ shown 0 rate ++ " backtests/sec)" ++
      (if found.timedOut then " [TIMED OUT]" else ""),
    "    Tested " ++ toString found.tested ++ ", " ++ toString found.results.length ++ " ranked"]
  sayFindings form script found

/-- Carries out a request. -/
def perform (host : Host m) (request : Request Float) : Session m Unit := do
  sayAll banner
  let start ← ask host.stopwatch
  let rows ← barsOf host request
  say ("    " ++ toString rows.length ++ " candles loaded in " ++
    shown 2 ((← ask host.stopwatch) - start) ++ "s")
  match request.task with
  | .backtest => runBacktest host request rows
  | .optimize => runOptimize host request rows
  sayAll ["", "Total time: " ++ shown 2 ((← ask host.stopwatch) - start) ++ "s"]

/-- How a session ended. -/
inductive Ending where
  | finished
  | helped
  /-- Something was wrong with what was asked for. -/
  | failed (fault : Fault)
  | refused (refusal : Refusal)
  /-- A fault that the command line does not expect. -/
  | crashed (fault : Fault)

namespace Ending

/-- A fault is reported if its kind is about the input. -/
def ofFault (fault : Fault) : Ending :=
  match fault.kind with
  | .invalid | .unresolved | .file => .failed fault
  | _ => .crashed fault

def exitCode : Ending → Nat
  | .finished | .helped => 0
  | .failed _ | .crashed _ => 1
  | .refused _ => 2

/-- What is written to the error output. -/
def complaint : Ending → String
  | .finished | .helped => ""
  | .failed fault => "Error: " ++ fault.message
  | .refused refusal => refusal.message
  | .crashed fault => "Unexpected error: " ++ fault.message

end Ending

/-- The seed that is set outside the command line; an empty one is none. -/
def defaultSeed (text : Option String) : Outcome (Option Int) :=
  match text.filter fun text => !text.isEmpty with
  | none => .ok none
  | some text => match Decimal.integer text.toList with
    | .ok seed => .ok (some seed)
    | .error .malformed => .error (.notAnInteger text)
    | .error (.tooLong digits) => .error (.integerTooLong digits)

/-- Carries out a command line, given the text of the seed that is set outside of it. -/
def runWords (host : Host m) (words : List String) (seed : Option String) :
    m (Ending × Transcript) := do
  match defaultSeed seed with
  | .error fault => pure (.crashed fault, .empty)
  | .ok seed => match Request.ofWords words seed with
    | .error (.help task) => pure (.helped, ⟨helpLines task, []⟩)
    | .error (.refusal refusal) => pure (.refused refusal, .empty)
    | .ok request => do
        let (result, transcript) ← (perform host request).run.run .empty
        match result with
        | .ok () => pure (.finished, transcript)
        | .error fault => pure (.ofFault fault, transcript)

end Backtest.Command
