import Backtest.Proofs.Expr.Binding
import Backtest.Proofs.Expr.Lookup
import Backtest.Proofs.Script.Texts
import Backtest.Script.Run

/-!
# What a script looks up

Two runs of a script that start with environments that agree on its texts take the same way: they
record the same signals under the same guards, report the same lines, or stop at the same fault
(`block_alike`).  Each operation of a run keeps the agreement, and one induction over statements,
blocks and chains carries it through the script.

Parameters are bound by name, so distinct ones give the same environment in any order
(`execute_alike`).
-/

namespace Backtest

open Text Backtest.Expr

variable {α : Type} [Arith α] {scope : Scope}

namespace Environment

variable {env other : Environment α}

omit [Arith α] in
theorem Agree.bind (hagree : env.Agree scope other) (name : String) (value : Value α) :
    (env.bind name value).Agree scope (other.bind name value) := by
  intro asked hasked
  rw [Environment.bind, Environment.bind, value?, value?, Record.get?_put, Record.get?_put]
  split
  · rfl
  · exact hagree asked hasked

omit [Arith α] in
theorem Agree.bindAll (hagree : env.Agree scope other) (bound : List (String × Series α)) :
    (bound.foldl (fun env entry => env.bind entry.1 (.series entry.2)) env).Agree scope
      (bound.foldl (fun env entry => env.bind entry.1 (.series entry.2)) other) := by
  induction bound generalizing env other with
  | nil => exact hagree
  | cons entry rest ih => exact ih (hagree.bind entry.1 (.series entry.2))

/-! ## Parameters -/

section Parameters

variable {params others : Params α}

theorem bindable_of_withParams (hother : withParams env params = .ok other) : Bindable params := by
  induction params generalizing env with
  | nil => exact nofun
  | cons entry rest ih =>
      obtain ⟨value, hvalue, hother⟩ := Outcome.bind_eq_ok.1 hother
      exact List.forall_mem_cons.2 ⟨⟨value, hvalue⟩, ih hother⟩

/-- The only parameters that cannot be bound are integers beyond the finite numbers. -/
theorem fault_of_withParams {fault : Fault} (hfault : withParams env params = .error fault) :
    fault = .integerTooLarge := by
  induction params generalizing env with
  | nil => cases hfault
  | cons entry rest ih =>
      rw [withParams] at hfault
      cases hvalue : Value.ofScalar entry.2 with
      | ok value =>
          rw [hvalue] at hfault
          exact ih hfault
      | error stopped =>
          rw [hvalue] at hfault
          injection hfault with hfault
          rw [← hfault]
          cases hparam : entry.2 with
          | int n =>
              rw [hparam, Value.ofScalar, Scalar.ofInt] at hvalue
              split at hvalue
              · cases hvalue
              · injection hvalue with hvalue
                exact hvalue.symm
          | _ =>
              rw [hparam] at hvalue
              cases hvalue

omit [Arith α] in
theorem mem_of_same (hparams : Record.Distinct params) (hsame : Record.Same params others)
    {entry : String × Scalar α} (hentry : entry ∈ params) : entry ∈ others := by
  apply Record.mem_of_get?
  rw [← hsame entry.1, Record.get?_of_mem hparams hentry]

theorem Bindable.congr (hbindable : Bindable params) (hothers : Record.Distinct others)
    (hsame : Record.Same params others) : Bindable others :=
  fun entry hentry => hbindable entry (mem_of_same hothers (fun name => (hsame name).symm) hentry)

/-- Parameters are bound alike as far as they give the names that a scope sees the same values. -/
theorem agree_withParams {first second : Environment α} (hparams : Record.Distinct params)
    (hothers : Record.Distinct others)
    (hsame : ∀ name : String, scope.Sees name.toList →
      Record.get? params name = Record.get? others name)
    (hfirst : withParams env params = .ok first) (hsecond : withParams env others = .ok second) :
    first.Agree scope second := by
  intro name hname
  have hboth := hsame name hname
  by_cases hgiven : name ∈ Record.names params
  · obtain ⟨param, hparam⟩ := Record.exists_get? hgiven
    have hmem := Record.mem_of_get? hparam
    obtain ⟨value, hvalue⟩ := bindable_of_withParams hfirst _ hmem
    rw [value?_withParams_of_mem hparams hfirst hmem hvalue,
      value?_withParams_of_mem hothers hsecond (Record.mem_of_get? (hboth ▸ hparam)) hvalue]
  · have hmissing : name ∉ Record.names others := by
      intro hmem
      obtain ⟨param, hparam⟩ := Record.exists_get? hmem
      rw [← hboth, Record.get?_eq_none hgiven] at hparam
      exact nomatch hparam
    rw [value?_withParams_of_not_mem hfirst hgiven, value?_withParams_of_not_mem hsecond hmissing]

/-- Parameters with the same values by name are bound alike, in whatever order they stand. -/
theorem withParams_alike (env : Environment α) (hparams : Record.Distinct params)
    (hothers : Record.Distinct others) (hsame : Record.Same params others) :
    Outcome.Alike (Agree scope) (withParams env params) (withParams env others) := by
  have hback : Record.Same others params := fun name => (hsame name).symm
  cases hfirst : withParams env params with
  | error fault =>
      cases hsecond : withParams env others with
      | error stopped =>
          rw [fault_of_withParams hfirst, fault_of_withParams hsecond]
          exact .error _
      | ok second =>
          have hbindable := (bindable_of_withParams hsecond).congr hparams hback
          obtain ⟨first, hbound⟩ := exists_withParams env hbindable
          rw [hfirst] at hbound
          exact nomatch hbound
  | ok first =>
      have hbindable := bindable_of_withParams hfirst
      obtain ⟨second, hsecond⟩ := exists_withParams env (hbindable.congr hothers hsame)
      rw [hsecond]
      exact .ok (agree_withParams hparams hothers (fun name _ => hsame name) hfirst hsecond)

end Parameters

end Environment

namespace Script.Run

/-! ## Runs -/

/-- Two runs in the same state, but for environments that agree on a scope. -/
def Agree (scope : Scope) (run other : Run α) : Prop :=
  ∃ env, run.env.Agree scope env ∧ other = { run with env := env }

variable {run other : Run α}

theorem assign_alike (hagree : run.Agree scope other) (line : Nat) (name : String)
    {expression : Chars} (htext : scope.mentions expression) :
    Outcome.Alike (Agree scope) (run.assign line name expression)
      (other.assign line name expression) := by
  obtain ⟨env, henv, rfl⟩ := hagree
  refine Outcome.alike_bind_eq (evaluate?_congr henv htext) fun value => ?_
  cases value with
  | none => exact .ok ⟨env, henv, rfl⟩
  | some value => exact .ok ⟨env.bind name value, henv.bind name value, rfl⟩

theorem destructure_alike (hagree : run.Agree scope other) (line : Nat) (names : List String)
    (triple : Triple) {arguments : List Chars}
    (harguments : ∀ text ∈ arguments, scope.mentions text) :
    Outcome.Alike (Agree scope) (run.destructure line names triple arguments)
      (other.destructure line names triple arguments) := by
  obtain ⟨env, henv, rfl⟩ := hagree
  refine Outcome.alike_bind_eq (evaluateTriple?_congr henv triple harguments) fun results => ?_
  cases results with
  | none => exact .ok ⟨env, henv, rfl⟩
  | some results =>
      obtain ⟨first, second, third⟩ := results
      exact .ok ⟨_, henv.bindAll (names.zip [first, second, third]), rfl⟩

/-- Runs that agree, and one and the same further result. -/
def AgreeWith {β : Type} (scope : Scope) (first second : Run α × β) : Prop :=
  first.1.Agree scope second.1 ∧ first.2 = second.2

theorem condition_alike (hagree : run.Agree scope other) (line : Nat) {text : Chars}
    (htext : scope.mentions text) :
    Outcome.Alike (AgreeWith scope) (run.condition line text) (other.condition line text) := by
  obtain ⟨env, henv, rfl⟩ := hagree
  refine Outcome.alike_bind_eq (evaluate?_congr henv htext) fun value => ?_
  dsimp only
  cases value.bind (·.truth run.bars) with
  | none => exact .ok ⟨⟨env, henv, rfl⟩, rfl⟩
  | some flags => exact .ok ⟨⟨env, henv, rfl⟩, rfl⟩

omit [Arith α] in
theorem Agree.register (hagree : run.Agree scope other) (flags : Flags) :
    AgreeWith scope (run.register flags) (other.register flags) := by
  obtain ⟨env, henv, rfl⟩ := hagree
  exact ⟨⟨env, henv, rfl⟩, rfl⟩

omit [Arith α] in
theorem Agree.mask_eq (hagree : run.Agree scope other) (guard : Guard) :
    run.mask guard = other.mask guard := by
  obtain ⟨env, henv, rfl⟩ := hagree
  cases guard <;> rfl

omit [Arith α] in
theorem Agree.bars_eq (hagree : run.Agree scope other) : run.bars = other.bars := by
  obtain ⟨env, henv, rfl⟩ := hagree
  rfl

mutual

theorem statement_alike (next : Statement) {run other : Run α} (hagree : run.Agree scope other)
    (hall : next.All (fun _ => scope.mentions) scope.mentions) (guard : Option Guard) :
    Outcome.Alike (Agree scope) (statement guard run next) (statement guard other next) := by
  cases next with
  | signal line kind label =>
      obtain ⟨env, henv, rfl⟩ := hagree
      exact .ok ⟨env, henv, rfl⟩
  | assign line name expression =>
      rw [statement, statement]
      split
      · obtain ⟨env, henv, rfl⟩ := hagree
        exact .ok ⟨env, henv, rfl⟩
      · exact assign_alike hagree line name hall
  | destructure line names triple arguments =>
      rw [statement, statement]
      split
      · obtain ⟨env, henv, rfl⟩ := hagree
        exact .ok ⟨env, henv, rfl⟩
      · exact destructure_alike hagree line names triple hall
  | chain line branches otherwise =>
      have hmask : run.mask = other.mask := funext hagree.mask_eq
      rw [statement, statement, hmask, hagree.bars_eq]
      refine Outcome.alike_bind (chain_alike branches hagree hall.1 _ _)
        fun first second hreached => ?_
      obtain ⟨after, taken⟩ := first
      obtain ⟨reached, covered⟩ := second
      obtain ⟨hafter, htaken⟩ := hreached
      dsimp only at hafter htaken ⊢
      rw [htaken, hafter.bars_eq]
      split
      · exact .ok hafter
      · obtain ⟨hentered, hguard⟩ := hafter.register
          (active (guard.map other.mask) covered (List.replicate reached.bars true))
        rw [hguard]
        exact block_alike otherwise hentered hall.2 _

theorem block_alike (statements : List Statement) {run other : Run α}
    (hagree : run.Agree scope other)
    (hall : Statement.AllOf (fun _ => scope.mentions) scope.mentions statements)
    (guard : Option Guard) :
    Outcome.Alike (Agree scope) (block guard run statements) (block guard other statements) := by
  cases statements with
  | nil => exact .ok hagree
  | cons first rest =>
      rw [block, block]
      exact Outcome.alike_bind (statement_alike first hagree hall.1 guard) fun _ _ hreached =>
        block_alike rest hreached hall.2 guard

theorem chain_alike (branches : List Branch) {run other : Run α} (hagree : run.Agree scope other)
    (hall : Branch.AllOf (fun _ => scope.mentions) scope.mentions branches) (parent : Option Flags)
    (taken : Flags) :
    Outcome.Alike (AgreeWith scope) (chain parent run taken branches)
      (chain parent other taken branches) := by
  cases branches with
  | nil => exact .ok ⟨hagree, rfl⟩
  | cons first others =>
      obtain ⟨line, text, body⟩ := first
      obtain ⟨htext, hbody, hothers⟩ := hall
      rw [chain, chain]
      refine Outcome.alike_bind (condition_alike hagree line htext) fun first second htested => ?_
      obtain ⟨after, holds⟩ := first
      obtain ⟨reached, held⟩ := second
      obtain ⟨hafter, hholds⟩ := htested
      dsimp only at hafter hholds ⊢
      obtain ⟨hentered, hguard⟩ := hafter.register (active parent taken held)
      rw [hholds, hguard]
      exact Outcome.alike_bind (block_alike body hentered hbody _) fun _ _ hinner =>
        chain_alike others hinner hothers parent _

end

end Script.Run

namespace Script

mutual

theorem Statement.all_trivial :
    ∀ content : Statement, content.All (fun _ _ => True) (fun _ => True)
  | .assign _ _ _ => trivial
  | .destructure _ _ _ _ => fun _ _ => trivial
  | .signal _ _ _ => trivial
  | .chain _ branches otherwise =>
      ⟨Branch.allOf_trivial branches, Statement.allOf_trivial otherwise⟩

theorem Statement.allOf_trivial :
    ∀ statements : List Statement, Statement.AllOf (fun _ _ => True) (fun _ => True) statements
  | [] => trivial
  | content :: rest => ⟨Statement.all_trivial content, Statement.allOf_trivial rest⟩

theorem Branch.allOf_trivial :
    ∀ branches : List Branch, Branch.AllOf (fun _ _ => True) (fun _ => True) branches
  | [] => trivial
  | .mk _ _ body :: rest =>
      ⟨trivial, Statement.allOf_trivial body, Branch.allOf_trivial rest⟩

end

/-- Statements over texts of a scope run alike from environments that agree on it. -/
theorem execute_alike_of_start {statements : List Statement}
    (hall : Statement.AllOf (fun _ => scope.mentions) scope.mentions statements) (prices : Prices α)
    {params others : Params α}
    (hstart : Outcome.Alike (Environment.Agree scope) (Environment.start prices params)
      (Environment.start prices others)) :
    Outcome.Alike (Run.Agree scope) (execute statements prices params)
      (execute statements prices others) := by
  have hruns : Outcome.Alike (Run.Agree scope) (Run.start prices params)
      (Run.start prices others) :=
    Outcome.alike_bind hstart fun env other henv => .ok ⟨other, henv, rfl⟩
  exact Outcome.alike_bind hruns fun run other hagree =>
    Run.block_alike statements hagree hall none

/-- A script runs alike with parameters that have the same values by name. -/
theorem execute_alike (statements : List Statement) (prices : Prices α) {params others : Params α}
    (hparams : Record.Distinct params) (hothers : Record.Distinct others)
    (hsame : Record.Same params others) :
    Outcome.Alike (Run.Agree .everything) (execute statements prices params)
      (execute statements prices others) :=
  execute_alike_of_start (Statement.allOf_trivial statements) prices
    (Environment.withParams_alike _ hparams hothers hsame)

end Script

end Backtest
