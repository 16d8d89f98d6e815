import Backtest.Expr.Evaluate
import Backtest.Script.Block

/-!
# Running a script

A script runs once for all bars.  A condition is a truth series; the statements under it see it as a
guard, and each signal is recorded with the guard that it stands under.  A branch is active where
its condition holds, its guard holds, and no earlier condition of its chain holds.

Only signals and further conditions take effect under a guard.  Assignments there are reported as
skipped, and lines that do not resolve are reported as unresolved; neither stops the run.
-/

namespace Backtest.Script

open Text Backtest.Expr

/-- The condition that a signal stands under: none, or the branch with this number. -/
inductive Guard where
  | always
  | branch (number : Nat)
  deriving DecidableEq

def Guard.name : Guard → String
  | .always => "always"
  | .branch number => "cond_" ++ toString number

structure Signal where
  kind : SignalKind
  guard : Guard
  label : Option String
  deriving DecidableEq

/-- The state of a run, which is its result at the end. -/
structure Run (α : Type) where
  bars : Nat
  env : Environment α
  /-- The series of the branches, by number. -/
  masks : List Flags
  signals : List Signal
  unresolved : List Nat
  skipped : List Nat

namespace Run

variable {α : Type} [Arith α]

def start (prices : Prices α) (params : Params α) : Outcome (Run α) := do
  pure ⟨prices.length, ← Environment.start prices params, [], [], [], []⟩

def context (run : Run α) : Context α := ⟨run.env, run.bars⟩

/-- The bars at which a guard holds. -/
def mask (run : Run α) : Guard → Flags
  | .always => List.replicate run.bars true
  | .branch number => run.masks[number]?.getD []

/-- All guards of a run with their series. -/
def conditions (run : Run α) : List (Guard × Flags) :=
  (.always, run.mask .always) :: run.masks.zipIdx.map fun entry => (.branch entry.2, entry.1)

/-- The signals with the bars at which they are given. -/
def activations (run : Run α) : List (SignalKind × Flags) :=
  run.signals.map fun signal => (signal.kind, run.mask signal.guard)

def reportUnresolved (run : Run α) (line : Nat) : Run α :=
  { run with unresolved := run.unresolved ++ [line] }

def reportSkipped (run : Run α) (line : Nat) : Run α :=
  { run with skipped := run.skipped ++ [line] }

def emit (run : Run α) (signal : Signal) : Run α :=
  { run with signals := run.signals ++ [signal] }

def assign (run : Run α) (line : Nat) (name : String) (expression : Chars) : Outcome (Run α) := do
  match ← evaluate? run.context expression with
  | some value => pure { run with env := run.env.bind name value }
  | none => pure (run.reportUnresolved line)

/-- Binds up to three names to the three results of a call. -/
def destructure (run : Run α) (line : Nat) (names : List String) (triple : Triple)
    (arguments : List Chars) : Outcome (Run α) := do
  match ← evaluateTriple? run.context triple arguments with
  | some (first, second, third) =>
      let bound := names.zip [first, second, third]
      pure { run with
        env := bound.foldl (fun env entry => env.bind entry.1 (.series entry.2)) run.env }
  | none => pure (run.reportUnresolved line)

/-- The truth series of a condition.  One that does not resolve to truth values holds nowhere. -/
def condition (run : Run α) (line : Nat) (text : Chars) : Outcome (Run α × Flags) := do
  match (← evaluate? run.context text).bind (·.truth run.bars) with
  | some flags => pure (run, flags)
  | none => pure (run.reportUnresolved line, List.replicate run.bars false)

/-- Gives a series the next guard. -/
def register (run : Run α) (flags : Flags) : Run α × Guard :=
  ({ run with masks := run.masks ++ [flags] }, .branch run.masks.length)

/-- Where a branch is active: its condition holds, no earlier one does, and the parent holds. -/
def active (parent : Option Flags) (taken condition : Flags) : Flags :=
  let own := List.zipWith (fun holds before => holds && !before) condition taken
  match parent with
  | none => own
  | some flags => List.zipWith (· && ·) own flags

mutual

def statement (guard : Option Guard) (run : Run α) : Statement → Outcome (Run α)
  | .signal _ kind label => .ok (run.emit ⟨kind, guard.getD .always, label⟩)
  | .chain _ branches otherwise => do
      let parent := guard.map run.mask
      let (run, taken) ← chain parent run (List.replicate run.bars false) branches
      if otherwise.isEmpty then pure run
      else
        let flags := active parent taken (List.replicate run.bars true)
        let (run, inner) := run.register flags
        block (some inner) run otherwise
  | .assign line name expression =>
      if guard.isSome then .ok (run.reportSkipped line) else run.assign line name expression
  | .destructure line names triple arguments =>
      if guard.isSome then .ok (run.reportSkipped line)
      else run.destructure line names triple arguments

def block (guard : Option Guard) (run : Run α) : List Statement → Outcome (Run α)
  | [] => .ok run
  | first :: rest => do block guard (← statement guard run first) rest

/-- Runs the branches of a chain; gives the bars at which one of their conditions holds. -/
def chain (parent : Option Flags) (run : Run α) (taken : Flags) :
    List Branch → Outcome (Run α × Flags)
  | [] => .ok (run, taken)
  | .mk line text body :: rest => do
      let (run, holds) ← run.condition line text
      let (run, inner) := run.register (active parent taken holds)
      let run ← block (some inner) run body
      chain parent run (List.zipWith (· || ·) taken holds) rest

end

end Run

variable {α : Type} [Arith α]

/-- Runs statements over a price table. -/
def execute (statements : List Statement) (prices : Prices α) (params : Params α) :
    Outcome (Run α) := do
  (← Run.start prices params).block none statements

/-- Runs a script over a price table. -/
def run (code : String) (prices : Prices α) (params : Params α) : Outcome (Run α) :=
  execute (parse code.toList) prices params

end Backtest.Script
