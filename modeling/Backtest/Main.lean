import Backtest.Command.Session
import Std.Time.DateTime.Timestamp

/-!
# The program

Carries out the words of the command line on the files and the clocks of the machine.
-/

namespace Backtest.Command

/-- The environment variable that holds the seed of searches. -/
def seedVariable : String := "STRATOPT_SEED"

/-- What a failure to read a file tells about the file. -/
def flawOf : IO.Error → FileFlaw
  | .inappropriateType (some _) _ _ => .notDirectory
  | .inappropriateType none _ _ => .directory
  | .invalidArgument _ _ _ => .nameTooLong
  | _ => .missing

/-- The clocks and the files of the machine. -/
def machine : Host IO where
  clock := do
    let now ← Std.Time.Timestamp.now
    pure (Float.ofInt now.toMillisecondsSinceUnixEpoch.toInt / 1000)
  stopwatch := do
    pure (Float.ofNat (← IO.monoNanosNow) / 1000000000)
  textOf path := do
    match ← (IO.FS.readFile path).toBaseIO with
    | .ok text => pure (.ok text)
    | .error flaw => pure (.error (flawOf flaw))

end Backtest.Command

open Backtest.Command in
def main (words : List String) : IO UInt32 := do
  let (ending, transcript) ← runWords machine words (← IO.getEnv seedVariable)
  for line in transcript.lines do
    IO.println line
  for warning in transcript.warnings do
    IO.eprintln ("Warning: " ++ warning)
  if !ending.complaint.isEmpty then
    IO.eprintln ending.complaint
  pure (UInt32.ofNat ending.exitCode)
