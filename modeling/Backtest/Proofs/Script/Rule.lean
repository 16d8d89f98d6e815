import Backtest.Proofs.Expr.Binding
import Backtest.Proofs.Script.Interpretation

/-!
# Rules of a script

A rule is an `if` with one signal call under its condition.  Running it registers the series of the
condition, cut by the conditions before it, and gives the signal under it (`Run.give`); running
rules one after the other from a run that has only bound names lists their signals in order.
-/

namespace Backtest.Script

open Text Backtest.Expr

variable {α : Type} [Arith α]

/-- An `if` on a line of its own with a signal call on the next one. -/
def rule (line : Nat) (condition : Term) (kind : SignalKind) (label : Option String) : Statement :=
  .chain line [.mk line condition.print [.signal (line + 1) kind label]] []

namespace Run

/-- A run that has bound names and done nothing else. -/
def fresh (bars : Nat) (env : Environment α) : Run α := ⟨bars, env, [], [], [], []⟩

/-- A run after a branch with one signal call, given the bars at which the branches before it are
taken and those at which its condition holds. -/
def give (run : Run α) (taken holds : Flags) (kind : SignalKind) (label : Option String) : Run α :=
  let registered := run.register (active none taken holds)
  registered.1.emit ⟨kind, registered.2, label⟩

variable {run : Run α} {condition : Term} {holds : Flags}

theorem assign_print {term : Term} {value : Value α} (hnamed : Named run.env)
    (hmeaning : meaning run.context term = some value) (line : Nat) (name : String) :
    run.assign line name term.print = .ok { run with env := run.env.bind name value } := by
  rw [Run.assign, evaluate?_print hnamed hmeaning]
  rfl

theorem condition_print (hnamed : Named run.env)
    (hmeaning : meaning run.context condition = some (.flags holds)) (line : Nat) :
    run.condition line condition.print = .ok (run, holds) := by
  rw [Run.condition, evaluate?_print hnamed hmeaning]
  rfl

theorem chain_give (hnamed : Named run.env)
    (hmeaning : meaning run.context condition = some (.flags holds)) (line under : Nat)
    (kind : SignalKind) (label : Option String) (taken : Flags) (rest : List Branch) :
    chain none run taken (.mk line condition.print [.signal under kind label] :: rest) =
      chain none (run.give taken holds kind label) (List.zipWith (· || ·) taken holds) rest := by
  rw [chain, condition_print hnamed hmeaning]
  rfl

theorem statement_rule (hnamed : Named run.env)
    (hmeaning : meaning run.context condition = some (.flags holds)) (line : Nat)
    (kind : SignalKind) (label : Option String) :
    statement none run (rule line condition kind label) =
      .ok (run.give (List.replicate run.bars false) holds kind label) := by
  rw [rule, statement, Option.map_none, chain_give hnamed hmeaning]
  rfl

/-- A run that has only bound names goes on from an assignment with one name more. -/
theorem block_fresh_assign {bars : Nat} {env : Environment α} (hnamed : Named env) {term : Term}
    {value : Value α} (hmeaning : meaning ⟨env, bars⟩ term = some value) (line : Nat)
    (name : String) (rest : List Statement) :
    block none (fresh bars env) (.assign line name term.print :: rest) =
      block none (fresh bars (env.bind name value)) rest := by
  have hassign := assign_print (show Named (fresh bars env).env from hnamed) hmeaning line name
  change ((fresh bars env).assign line name term.print >>= fun run => block none run rest) = _
  rw [hassign]
  rfl

/-- Two rules in a row give their two signals. -/
theorem activations_two_rules {bars : Nat} {env : Environment α} (hnamed : Named env)
    {first second : Term} {p q : Flags}
    (hfirst : meaning ⟨env, bars⟩ first = some (.flags p))
    (hsecond : meaning ⟨env, bars⟩ second = some (.flags q)) (line next : Nat)
    (kind other : SignalKind) (label label' : Option String) :
    ∃ run, block none (fresh bars env) [rule line first kind label, rule next second other label'] =
        .ok run ∧
      run.activations = [(kind, active none (List.replicate bars false) p),
        (other, active none (List.replicate bars false) q)] := by
  refine ⟨((fresh bars env).give _ p kind label).give _ q other label', ?_, rfl⟩
  rw [block, statement_rule hnamed hfirst]
  change block none ((fresh bars env).give _ p kind label) [_] = _
  rw [block, statement_rule hnamed hsecond]
  rfl

end Run

end Backtest.Script
