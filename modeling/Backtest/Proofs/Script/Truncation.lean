import Backtest.Proofs.Expr.Truncation
import Backtest.Script.Run

/-!
# Scripts over the first bars

Over the first bars of a price table a script gives the same signals and reports the same lines as
over the whole table, and each of its series is the first part of what it is there.

The law is an equation between outcomes, so a run over the first bars also meets a fault exactly
where the whole run meets it.  It rests on one lemma for each operation of a run and one induction
over statements, blocks and chains.
-/

namespace Backtest

variable {α : Type} (count : Nat)

theorem Prices.length_take (prices : Prices α) :
    (prices.take count).length = min count prices.length :=
  List.length_take

variable [Arith α]

/-! ## The first environment -/

theorem Value.ofScalar_take {param : Scalar α} {value : Option (Value α)}
    (hvalue : Value.ofScalar param = .ok value) : value.map (Value.take count) = value := by
  cases param with
  | int n =>
      rw [Value.ofScalar] at hvalue
      cases hn : (Scalar.ofInt n : Outcome α) with
      | error fault => rw [hn] at hvalue; exact nomatch hvalue
      | ok x => rw [hn] at hvalue; injection hvalue with hvalue; rw [← hvalue]; rfl
  | _ => injection hvalue with hvalue; rw [← hvalue]; rfl

namespace Environment

theorem withParams_take (env : Environment α) (params : Params α) :
    withParams (env.take count) params = (withParams env params).map (take count) := by
  induction params generalizing env with
  | nil => rfl
  | cons param rest ih =>
      obtain ⟨name, param⟩ := param
      rw [withParams, withParams]
      cases hvalue : Value.ofScalar param with
      | error fault => rfl
      | ok value =>
          change withParams (Record.put (env.take count) name value) rest = _
          rw [← Value.ofScalar_take count hvalue, ← put_take, ih, Value.ofScalar_take count hvalue]
          rfl

theorem ofPrices_take (prices : Prices α) :
    ofPrices (prices.take count) = (ofPrices prices).take count := by
  simp only [ofPrices, Prices.take, take, List.map_cons, List.map_nil, Option.map, Value.take,
    ← List.take_zipWith, List.map_take]

theorem start_take (prices : Prices α) (params : Params α) :
    start (prices.take count) params = (start prices params).map (take count) := by
  rw [start, ofPrices_take, withParams_take, start]

end Environment

namespace Script

open Text Backtest.Expr

/-! ## Runs -/

namespace Run

/-- What a run comes to over the first bars: each series is cut, all else stays. -/
def take (run : Run α) : Run α :=
  { run with
    bars := min count run.bars
    env := run.env.take count
    masks := run.masks.map (List.take count) }

omit [Arith α] in
theorem mask_take (run : Run α) (guard : Guard) :
    (run.take count).mask guard = (run.mask guard).take count := by
  cases guard with
  | always => exact List.take_replicate.symm
  | branch number =>
      change (run.masks.map (List.take count))[number]?.getD [] =
        (run.masks[number]?.getD []).take count
      rw [List.getElem?_map]
      cases run.masks[number]? with
      | none => exact List.take_nil.symm
      | some flags => rfl

omit [Arith α] in
theorem conditions_take (run : Run α) :
    (run.take count).conditions =
      run.conditions.map fun entry => (entry.1, entry.2.take count) := by
  rw [conditions, conditions, mask_take, List.map_cons, List.map_map]
  change _ :: ((run.masks.map (List.take count)).zipIdx.map _) = _
  rw [List.zipIdx_map, List.map_map]
  rfl

omit [Arith α] in
private theorem ok_env (run : Run α) {left right : Environment α} (henv : left = right) :
    (.ok { run.take count with env := left } : Outcome (Run α)) =
      .ok { run.take count with env := right } := by rw [henv]

theorem assign_take (run : Run α) (line : Nat) (name : String) (expression : Chars) :
    (run.take count).assign line name expression =
      (run.assign line name expression).map (take count) := by
  rw [assign, assign, show (run.take count).context = run.context.take count from rfl,
    evaluate?_take]
  cases evaluate? run.context expression with
  | error fault => rfl
  | ok value =>
      cases value with
      | none => rfl
      | some value =>
          exact ok_env count run (Environment.bind_take count run.env name value).symm

omit [Arith α] in
theorem bindAll_take (env : Environment α) (bound : List (String × Series α)) :
    (bound.map (Prod.map id (List.take count))).foldl
        (fun env entry => env.bind entry.1 (.series entry.2)) (env.take count) =
      (bound.foldl (fun env entry => env.bind entry.1 (.series entry.2)) env).take count := by
  induction bound generalizing env with
  | nil => rfl
  | cons entry rest ih =>
      rw [List.map_cons, List.foldl_cons, List.foldl_cons, ← ih, Environment.bind_take]
      rfl

theorem destructure_take (run : Run α) (line : Nat) (names : List String) (triple : Triple)
    (arguments : List Chars) :
    (run.take count).destructure line names triple arguments =
      (run.destructure line names triple arguments).map (take count) := by
  rw [destructure, destructure, show (run.take count).context = run.context.take count from rfl,
    evaluateTriple?_take]
  cases evaluateTriple? run.context triple arguments with
  | error fault => rfl
  | ok results =>
      cases results with
      | none => rfl
      | some results =>
          obtain ⟨first, second, third⟩ := results
          have hzip : names.zip [first.take count, second.take count, third.take count] =
              (names.zip [first, second, third]).map (Prod.map id (List.take count)) := by
            rw [← List.zip_map_right]
            rfl
          have henv := bindAll_take count run.env (names.zip [first, second, third])
          rw [← hzip] at henv
          exact ok_env count run henv

/-- What a condition does once its text is evaluated. -/
theorem condition_of_evaluate {run : Run α} {line : Nat} {text : Chars} {value : Option (Value α)}
    (hvalue : evaluate? run.context text = .ok value) :
    run.condition line text =
      match value.bind (·.truth run.bars) with
      | some flags => .ok (run, flags)
      | none => .ok (run.reportUnresolved line, List.replicate run.bars false) := by
  rw [condition, hvalue]
  rfl

theorem condition_take (run : Run α) (line : Nat) (text : Chars) :
    (run.take count).condition line text =
      (run.condition line text).map (Prod.map (take count) (List.take count)) := by
  have htaken : evaluate? (run.take count).context text = _ := evaluate?_take count run.context text
  cases hvalue : evaluate? run.context text with
  | error fault =>
      rw [condition, condition, htaken, hvalue]
      rfl
  | ok value =>
      rw [hvalue] at htaken
      have htruth : (value.map (Value.take count)).bind (·.truth (run.take count).bars) =
          (value.bind (·.truth run.bars)).map (List.take count) := by
        cases value with
        | none => rfl
        | some value => exact value.truth_take ..
      rw [condition_of_evaluate hvalue, condition_of_evaluate htaken, htruth]
      cases value.bind (·.truth run.bars) with
      | some flags => rfl
      | none =>
          rw [Option.map_none]
          exact congrArg (fun flags => Except.ok (_, flags)) List.take_replicate.symm

omit [Arith α] in
theorem register_take (run : Run α) (flags : Flags) :
    (run.take count).register (flags.take count) =
      Prod.map (take count) id (run.register flags) := by
  simp [register, take]

theorem active_take (parent : Option Flags) (taken condition : Flags) :
    active (parent.map (List.take count)) (taken.take count) (condition.take count) =
      (active parent taken condition).take count := by
  cases parent with
  | none => exact List.take_zipWith.symm
  | some flags =>
      rw [Option.map_some, active, active, ← List.take_zipWith, ← List.take_zipWith]

mutual

theorem statement_take (guard : Option Guard) (run : Run α) (next : Statement) :
    statement guard (run.take count) next = (statement guard run next).map (take count) := by
  cases next with
  | signal line kind label => rfl
  | assign line name expression =>
      rw [statement, statement]
      split
      · rfl
      · exact assign_take ..
  | destructure line names triple arguments =>
      rw [statement, statement]
      split
      · rfl
      · exact destructure_take ..
  | chain line branches otherwise =>
      have hparent : guard.map (run.take count).mask =
          (guard.map run.mask).map (List.take count) := by
        cases guard with
        | none => rfl
        | some guard => exact congrArg some (mask_take ..)
      rw [statement, statement, hparent]
      dsimp only
      rw [show List.replicate (run.take count).bars false =
        (List.replicate run.bars false).take count from List.take_replicate.symm, chain_take]
      cases chain (guard.map run.mask) run (List.replicate run.bars false) branches with
      | error fault => rfl
      | ok result =>
          obtain ⟨after, taken⟩ := result
          dsimp only [Except.map, Prod.map, bind, Except.bind]
          split
          · rfl
          · rw [show List.replicate (after.take count).bars true =
              (List.replicate after.bars true).take count from List.take_replicate.symm,
              active_take, register_take]
            exact block_take ..

theorem block_take (guard : Option Guard) (run : Run α) (statements : List Statement) :
    block guard (run.take count) statements = (block guard run statements).map (take count) := by
  cases statements with
  | nil => rfl
  | cons first rest =>
      rw [block, block, statement_take]
      cases statement guard run first with
      | error fault => rfl
      | ok after => exact block_take ..

theorem chain_take (parent : Option Flags) (run : Run α) (taken : Flags)
    (branches : List Branch) :
    chain (parent.map (List.take count)) (run.take count) (taken.take count) branches =
      (chain parent run taken branches).map (Prod.map (take count) (List.take count)) := by
  cases branches with
  | nil => rfl
  | cons first rest =>
      obtain ⟨line, text, body⟩ := first
      rw [chain, chain, condition_take]
      cases condition run line text with
      | error fault => rfl
      | ok result =>
          obtain ⟨after, holds⟩ := result
          dsimp only [Except.map, Prod.map, bind, Except.bind]
          rw [active_take, register_take]
          dsimp only [Prod.map, id]
          rw [block_take]
          cases block (some (after.register (active parent taken holds)).2)
              (after.register (active parent taken holds)).1 body with
          | error fault => rfl
          | ok inner =>
              dsimp only [Except.map]
              rw [← List.take_zipWith]
              exact chain_take ..

end

end Run

theorem execute_take (statements : List Statement) (prices : Prices α) (params : Params α) :
    execute statements (prices.take count) params =
      (execute statements prices params).map (Run.take count) := by
  rw [execute, execute, Run.start, Run.start, Environment.start_take, Prices.length_take]
  cases Environment.start prices params with
  | error fault => rfl
  | ok env => exact Run.block_take count none ⟨prices.length, env, [], [], [], []⟩ statements

/-- A script over the first bars of a table gives the first part of what it gives over all. -/
theorem run_take (code : String) (prices : Prices α) (params : Params α) :
    run code (prices.take count) params = (run code prices params).map (Run.take count) :=
  execute_take ..

end Script

end Backtest
