import Backtest.Proofs.Script.Fault
import Backtest.Proofs.Script.Lookup

/-!
# The answers of a run

A run asks the evaluator for the values of texts and for the three series of calls, and what it asks
next depends on what it was told.  `Logged` computations keep each answer next to their outcome, and
a logged run asks for nothing behind the back of its log.  Forgetting the log gives the run itself
(`outcome_run`), so that the log is the one of the run.

By `lengths_of_run`, the answers, the conditions and the values of the names have one entry for each
bar, or are single.
-/

namespace Backtest

open Text Backtest.Expr Outcome

variable {α : Type}

namespace Script

theorem Run.bars_start [Arith α] {prices : Prices α} {params : Params α} {run : Run α}
    (hrun : start prices params = .ok run) : run.bars = prices.length := by
  obtain ⟨env, _, hrun⟩ := Outcome.bind_eq_ok.1 hrun
  exact Except.ok.inj hrun ▸ rfl

/-- What the evaluator tells a run: the value of a text, or the three series of a call. -/
inductive Answer (α : Type) where
  | value (told : Outcome (Option (Value α)))
  | triple (told : Outcome (Option (Series α × Series α × Series α)))

/-- Every series of an answer has one entry for each bar. -/
def Answer.Covers (bars : Nat) : Answer α → Prop
  | .value told => Gives (Value.Covers bars) told
  | .triple told => Gives (fun lines => lines.1.length = bars ∧ lines.2.1.length = bars ∧
      lines.2.2.length = bars) told

/-- A computation with the answers that it was given, also where it ends in a fault. -/
structure Logged (α β : Type) where
  answers : List (Answer α)
  outcome : Outcome β

namespace Logged

variable {β γ : Type}

instance : Monad (Logged α) where
  pure x := ⟨[], .ok x⟩
  bind first next := match first.outcome with
    | .ok x => ⟨first.answers ++ (next x).answers, (next x).outcome⟩
    | .error fault => ⟨first.answers, .error fault⟩

theorem outcome_bind (first : Logged α β) (next : β → Logged α γ) :
    (first >>= next).outcome = first.outcome >>= fun x => (next x).outcome := by
  change Logged.outcome (match first.outcome with | .ok x => _ | .error fault => _) = _
  cases first.outcome <;> rfl

/-- The answers to a computation are those to its first part and those to what follows. -/
theorem mem_answers_bind {first : Logged α β} {next : β → Logged α γ} {answer : Answer α} :
    answer ∈ (first >>= next).answers ↔ answer ∈ first.answers ∨
      ∃ x, first.outcome = .ok x ∧ answer ∈ (next x).answers := by
  change answer ∈ Logged.answers (match first.outcome with | .ok x => _ | .error fault => _) ↔ _
  cases first.outcome with
  | ok x =>
      rw [List.mem_append]
      refine or_congr_right ⟨fun hmem => ⟨x, rfl, hmem⟩, ?_⟩
      rintro ⟨y, hy, hmem⟩
      exact Except.ok.inj hy ▸ hmem
  | error fault => exact ⟨.inl, fun h => h.resolve_right fun ⟨_, hx, _⟩ => nomatch hx⟩

/-- All series of the answers have one entry for each bar. -/
def Covers (bars : Nat) (logged : Logged α β) : Prop :=
  ∀ answer ∈ logged.answers, answer.Covers bars

theorem covers_pure (bars : Nat) (x : β) : (pure x : Logged α β).Covers bars := nofun

theorem covers_bind {bars : Nat} {first : Logged α β} {next : β → Logged α γ}
    (hfirst : first.Covers bars) (hnext : ∀ x, first.outcome = .ok x → (next x).Covers bars) :
    (first >>= next).Covers bars := by
  intro answer hanswer
  rcases mem_answers_bind.1 hanswer with hanswer | ⟨x, hx, hanswer⟩
  · exact hfirst answer hanswer
  · exact hnext x hx answer hanswer

variable [Arith α]

def ask (context : Context α) (text : Chars) : Logged α (Option (Value α)) :=
  ⟨[.value (evaluate? context text)], evaluate? context text⟩

def askTriple (context : Context α) (triple : Triple) (arguments : List Chars) :
    Logged α (Option (Series α × Series α × Series α)) :=
  ⟨[.triple (evaluateTriple? context triple arguments)], evaluateTriple? context triple arguments⟩

/-! ## Logged runs

The same run, in which every value comes from `ask` or `askTriple`. -/

def assign (run : Run α) (line : Nat) (name : String) (expression : Chars) :
    Logged α (Run α) := do
  match ← ask run.context expression with
  | some value => pure { run with env := run.env.bind name value }
  | none => pure (run.reportUnresolved line)

def destructure (run : Run α) (line : Nat) (names : List String) (triple : Triple)
    (arguments : List Chars) : Logged α (Run α) := do
  match ← askTriple run.context triple arguments with
  | some (first, second, third) =>
      let bound := names.zip [first, second, third]
      pure { run with
        env := bound.foldl (fun env entry => env.bind entry.1 (.series entry.2)) run.env }
  | none => pure (run.reportUnresolved line)

def condition (run : Run α) (line : Nat) (text : Chars) : Logged α (Run α × Flags) := do
  match (← ask run.context text).bind (·.truth run.bars) with
  | some flags => pure (run, flags)
  | none => pure (run.reportUnresolved line, List.replicate run.bars false)

mutual

def statement (guard : Option Guard) (run : Run α) : Statement → Logged α (Run α)
  | .signal _ kind label => pure (run.emit ⟨kind, guard.getD .always, label⟩)
  | .chain _ branches otherwise => do
      let parent := guard.map run.mask
      let (run, taken) ← chain parent run (List.replicate run.bars false) branches
      if otherwise.isEmpty then pure run
      else
        let flags := Run.active parent taken (List.replicate run.bars true)
        let (run, inner) := run.register flags
        block (some inner) run otherwise
  | .assign line name expression =>
      if guard.isSome then pure (run.reportSkipped line) else assign run line name expression
  | .destructure line names triple arguments =>
      if guard.isSome then pure (run.reportSkipped line)
      else destructure run line names triple arguments

def block (guard : Option Guard) (run : Run α) : List Statement → Logged α (Run α)
  | [] => pure run
  | first :: rest => do block guard (← statement guard run first) rest

def chain (parent : Option Flags) (run : Run α) (taken : Flags) :
    List Branch → Logged α (Run α × Flags)
  | [] => pure (run, taken)
  | .mk line text body :: rest => do
      let (run, holds) ← condition run line text
      let (run, inner) := run.register (Run.active parent taken holds)
      let run ← block (some inner) run body
      chain parent run (List.zipWith (· || ·) taken holds) rest

end

/-- A run of a script with its log. -/
def run (code : String) (prices : Prices α) (params : Params α) : Logged α (Run α) := do
  let first ← ⟨[], Run.start prices params⟩
  block none first (parse code.toList)

/-! ## Without the log -/

theorem outcome_assign (run : Run α) (line : Nat) (name : String) (expression : Chars) :
    (assign run line name expression).outcome = run.assign line name expression := by
  rw [assign, outcome_bind]
  refine congrArg _ (funext fun found => ?_)
  cases found <;> rfl

theorem outcome_destructure (run : Run α) (line : Nat) (names : List String) (triple : Triple)
    (arguments : List Chars) :
    (destructure run line names triple arguments).outcome =
      run.destructure line names triple arguments := by
  rw [destructure, outcome_bind]
  refine congrArg _ (funext fun found => ?_)
  cases found <;> rfl

theorem outcome_condition (run : Run α) (line : Nat) (text : Chars) :
    (condition run line text).outcome = run.condition line text := by
  rw [condition, outcome_bind]
  refine congrArg _ (funext fun found => ?_)
  cases found.bind (·.truth run.bars) <;> rfl

mutual

theorem outcome_statement (guard : Option Guard) (run : Run α) (content : Statement) :
    (statement guard run content).outcome = Run.statement guard run content := by
  cases content with
  | signal line kind label => rfl
  | assign line name expression =>
      rw [statement, Run.statement]
      split
      · rfl
      · exact outcome_assign run line name expression
  | destructure line names triple arguments =>
      rw [statement, Run.statement]
      split
      · rfl
      · exact outcome_destructure run line names triple arguments
  | chain line branches otherwise =>
      rw [statement, Run.statement, outcome_bind, outcome_chain]
      refine congrArg _ (funext fun reached => ?_)
      obtain ⟨after, taken⟩ := reached
      dsimp only
      split
      · rfl
      · exact outcome_block _ _ otherwise

theorem outcome_block (guard : Option Guard) (run : Run α) (statements : List Statement) :
    (block guard run statements).outcome = Run.block guard run statements := by
  cases statements with
  | nil => rfl
  | cons first rest =>
      rw [block, Run.block, outcome_bind, outcome_statement]
      exact congrArg _ (funext fun after => outcome_block guard after rest)

theorem outcome_chain (parent : Option Flags) (run : Run α) (taken : Flags)
    (branches : List Branch) :
    (chain parent run taken branches).outcome = Run.chain parent run taken branches := by
  cases branches with
  | nil => rfl
  | cons first others =>
      obtain ⟨line, text, body⟩ := first
      rw [chain, Run.chain, outcome_bind, outcome_condition]
      refine congrArg _ (funext fun tested => ?_)
      obtain ⟨tested, holds⟩ := tested
      dsimp only
      rw [outcome_bind, outcome_block]
      exact congrArg _ (funext fun inner => outcome_chain parent inner _ others)

end

/-- The log takes no part in a run. -/
theorem outcome_run (code : String) (prices : Prices α) (params : Params α) :
    (run code prices params).outcome = Script.run code prices params := by
  rw [run, outcome_bind]
  exact congrArg _ (funext fun first => outcome_block none first _)

/-! ## Lengths -/

section Lengths

variable {run : Run α}

theorem covers_ask (haligned : run.Aligned) (text : Chars) :
    (ask run.context text).Covers run.bars := by
  intro answer hanswer
  rw [List.mem_singleton.1 hanswer]
  exact evaluate?_covers haligned.context text

theorem covers_askTriple (haligned : run.Aligned) (triple : Triple) (arguments : List Chars) :
    (askTriple run.context triple arguments).Covers run.bars := by
  intro answer hanswer
  rw [List.mem_singleton.1 hanswer]
  exact evaluateTriple?_covers haligned.context triple arguments

theorem covers_assign (haligned : run.Aligned) (line : Nat) (name : String) (expression : Chars) :
    (assign run line name expression).Covers run.bars := by
  refine covers_bind (covers_ask haligned expression) fun found _ => ?_
  cases found <;> exact covers_pure _ _

theorem covers_destructure (haligned : run.Aligned) (line : Nat) (names : List String)
    (triple : Triple) (arguments : List Chars) :
    (destructure run line names triple arguments).Covers run.bars := by
  refine covers_bind (covers_askTriple haligned triple arguments) fun found _ => ?_
  cases found <;> exact covers_pure _ _

theorem covers_condition (haligned : run.Aligned) (line : Nat) (text : Chars) :
    (condition run line text).Covers run.bars := by
  refine covers_bind (covers_ask haligned text) fun found _ => ?_
  split <;> exact covers_pure _ _

mutual

theorem covers_statement (content : Statement) {guard : Option Guard} {run : Run α}
    (haligned : run.Aligned) (hguard : ∀ g, guard = some g → g.Within run.masks.length) :
    (statement guard run content).Covers run.bars := by
  cases content with
  | signal line kind label => exact covers_pure _ _
  | assign line name expression =>
      rw [statement]
      split
      · exact covers_pure _ _
      · exact covers_assign haligned line name expression
  | destructure line names triple arguments =>
      rw [statement]
      split
      · exact covers_pure _ _
      · exact covers_destructure haligned line names triple arguments
  | chain line branches otherwise =>
      have hparent := haligned.length_parent hguard
      rw [statement]
      refine covers_bind (covers_chain branches haligned hparent List.length_replicate) ?_
      rintro ⟨after, taken⟩ hafter
      rw [outcome_chain] at hafter
      obtain ⟨hleads, htaken⟩ :=
        Run.chain_leads branches haligned hparent List.length_replicate hafter
      dsimp only
      split
      · exact covers_pure _ _
      · have hall : (List.replicate after.bars true).length = run.bars := by
          rw [List.length_replicate, hleads.bars]
        have hregister := hleads.register (Run.length_active hparent htaken hall)
        rw [← hregister.bars]
        exact covers_block otherwise hregister.aligned (Run.within_register _ _)

theorem covers_block (statements : List Statement) {guard : Option Guard} {run : Run α}
    (haligned : run.Aligned) (hguard : ∀ g, guard = some g → g.Within run.masks.length) :
    (block guard run statements).Covers run.bars := by
  cases statements with
  | nil => exact covers_pure _ _
  | cons first rest =>
      rw [block]
      refine covers_bind (covers_statement first haligned hguard) fun after hafter => ?_
      rw [outcome_statement] at hafter
      have hleads := Run.statement_leads first haligned hguard hafter
      rw [← hleads.bars]
      exact covers_block rest hleads.aligned fun g hg => hleads.within (hguard g hg)

theorem covers_chain (branches : List Branch) {parent : Option Flags} {taken : Flags}
    {run : Run α} (haligned : run.Aligned)
    (hparent : ∀ flags, parent = some flags → flags.length = run.bars)
    (htaken : taken.length = run.bars) : (chain parent run taken branches).Covers run.bars := by
  cases branches with
  | nil => exact covers_pure _ _
  | cons first others =>
      obtain ⟨line, text, body⟩ := first
      rw [chain]
      refine covers_bind (covers_condition haligned line text) ?_
      rintro ⟨tested, holds⟩ hcondition
      rw [outcome_condition] at hcondition
      obtain ⟨htested, hholds⟩ := Run.condition_leads haligned hcondition
      have hregister := htested.register (Run.length_active hparent htaken hholds)
      dsimp only
      refine covers_bind ?_ fun inner hbody => ?_
      · rw [← hregister.bars]
        exact covers_block body hregister.aligned (Run.within_register _ _)
      · rw [outcome_block] at hbody
        have hinner := hregister.trans
          (Run.block_leads body hregister.aligned (Run.within_register _ _) hbody)
        rw [← hinner.bars] at hparent htaken hholds ⊢
        exact covers_chain others hinner.aligned hparent (Series.length_zipWith_of htaken hholds)

end

theorem covers_run (code : String) {prices : Prices α} {params : Params α}
    (hprices : prices.Aligned) : (Logged.run code prices params).Covers prices.length := by
  refine covers_bind (fun _ hanswer => nomatch hanswer) fun first hfirst => ?_
  rw [← Run.bars_start hfirst]
  exact covers_block _ (Run.start_aligned hprices hfirst) fun _ hguard => nomatch hguard

end Lengths

end Logged

end Script

/-! ## Names -/

/-- A value that a name has in a run: a number, a truth value, a text, or a series with one entry
for each bar. -/
def Value.Fits (bars : Nat) : Value α → Prop
  | .series values => values.length = bars
  | .flags values => values.length = bars
  | .number _ | .flag _ | .text _ => True
  | .list _ => False

/-- A parameter that is a number, a truth value or a text. -/
def Scalar.IsSingle : Scalar α → Prop
  | .int _ | .real _ | .flag _ | .text _ => True
  | .missing | .list _ => False

/-- No name is bound to nothing. -/
def Environment.Complete (env : Environment α) : Prop := ∀ entry ∈ env, entry.2.isSome = true

namespace Environment

variable {env next : Environment α}

theorem Complete.put (henv : env.Complete) (name : String) {value : Option (Value α)}
    (hvalue : value.isSome = true) : Environment.Complete (Record.put env name value) := by
  intro entry hentry
  rcases Record.mem_of_mem_put hentry with rfl | hentry
  · exact hvalue
  · exact henv entry hentry

theorem Complete.bindAll (henv : env.Complete) (bound : List (String × Series α)) :
    Environment.Complete
      (bound.foldl (fun env entry => env.bind entry.1 (.series entry.2)) env) := by
  induction bound generalizing env with
  | nil => exact henv
  | cons entry rest ih => exact ih (henv.put entry.1 rfl)

variable [Arith α]

/-- A single parameter that can be bound is bound to a value. -/
theorem isSome_ofScalar {param : Scalar α} {value : Option (Value α)} (hsingle : param.IsSingle)
    (hvalue : Value.ofScalar param = .ok value) : value.isSome = true ∧ param.IsSimple := by
  cases param with
  | int n =>
      obtain ⟨x, hx, hvalue⟩ := Outcome.bind_eq_ok.1 hvalue
      exact ⟨Except.ok.inj hvalue ▸ rfl, x, hx⟩
  | missing | list items => exact hsingle.elim
  | _ => exact ⟨Except.ok.inj hvalue ▸ rfl, trivial⟩

theorem Complete.withParams {params : Params α} (henv : env.Complete)
    (hparams : ∀ entry ∈ params, entry.2.IsSingle)
    (hnext : Environment.withParams env params = .ok next) : next.Complete := by
  induction params generalizing env with
  | nil =>
      injection hnext with hnext
      exact hnext ▸ henv
  | cons entry rest ih =>
      obtain ⟨hsingle, hrest⟩ := List.forall_mem_cons.1 hparams
      obtain ⟨value, hvalue, hnext⟩ := Outcome.bind_eq_ok.1 hnext
      exact ih (henv.put entry.1 (isSome_ofScalar hsingle hvalue).1) hrest hnext

end Environment

namespace Script

variable [Arith α]

/-- Only statements at the top bind names, and they bind them to values. -/
theorem Run.complete_block {run final : Run α} {statements : List Statement}
    (hcomplete : run.env.Complete) (hfinal : block none run statements = .ok final) :
    final.env.Complete := by
  induction statements generalizing run with
  | nil =>
      injection hfinal with hfinal
      exact hfinal ▸ hcomplete
  | cons first rest ih =>
      obtain ⟨next, hnext, hfinal⟩ := Outcome.bind_eq_ok.1 hfinal
      refine ih ?_ hfinal
      cases first with
      | signal line kind label =>
          have hacts : (Statement.signal line kind label).Acts := trivial
          exact (statement_keeps _ (.inr hacts) hnext).1.env ▸ hcomplete
      | chain line branches otherwise =>
          have hacts : (Statement.chain line branches otherwise).Acts := trivial
          exact (statement_keeps _ (.inr hacts) hnext).1.env ▸ hcomplete
      | assign line name expression =>
          obtain ⟨value, _, hnext⟩ := Outcome.bind_eq_ok.1 hnext
          cases value with
          | none => exact Except.ok.inj hnext ▸ hcomplete
          | some value => exact Except.ok.inj hnext ▸ hcomplete.put name rfl
      | destructure line names triple arguments =>
          obtain ⟨results, _, hnext⟩ := Outcome.bind_eq_ok.1 hnext
          cases results with
          | none => exact Except.ok.inj hnext ▸ hcomplete
          | some results => exact Except.ok.inj hnext ▸ hcomplete.bindAll _

omit [Arith α] in
/-- All conditions of an aligned run have full length. -/
theorem Run.Aligned.length_conditions {run : Run α} (haligned : run.Aligned) :
    ∀ entry ∈ run.conditions, entry.2.length = run.bars := by
  intro entry hentry
  rcases List.mem_cons.1 hentry with rfl | hentry
  · exact List.length_replicate
  · obtain ⟨⟨flags, number⟩, hflags, rfl⟩ := List.mem_map.1 hentry
    exact haligned.masks flags (List.fst_mem_of_mem_zipIdx hflags)

/-- In a run that comes to its end, each condition is a truth series with one entry for each bar,
each name has a single value or such a series, and so has each answer that the run was given. -/
theorem lengths_of_run (code : String) {prices : Prices α} {params : Params α} {final : Run α}
    (hprices : prices.Aligned) (hparams : ∀ entry ∈ params, entry.2.IsSingle)
    (hfinal : Script.run code prices params = .ok final) :
    (∀ entry ∈ final.conditions, entry.2.length = prices.length) ∧
      (∀ name entry, Record.get? final.env name = some entry →
        ∃ value, entry = some value ∧ value.Fits prices.length) ∧
      (Logged.run code prices params).outcome = .ok final ∧
      (Logged.run code prices params).Covers prices.length := by
  obtain ⟨first, hfirst, hblock⟩ := Outcome.bind_eq_ok.1 hfinal
  have hguard : ∀ guard, (none : Option Guard) = some guard → guard.Within first.masks.length :=
    nofun
  have hleads := Run.block_leads _ (Run.start_aligned hprices hfirst) hguard hblock
  have hbars : final.bars = prices.length := hleads.bars.trans (Run.bars_start hfirst)
  obtain ⟨env, henv, hstart⟩ := Outcome.bind_eq_ok.1 hfirst
  refine ⟨?_, ?_, (Logged.outcome_run code prices params).trans hfinal,
    Logged.covers_run code hprices⟩
  · rw [← hbars]
    exact hleads.aligned.length_conditions
  · have hcomplete : final.env.Complete := by
      refine Run.complete_block ?_ hblock
      rw [← Except.ok.inj hstart]
      refine Environment.Complete.withParams ?_ hparams henv
      intro entry hentry
      simp only [Environment.ofPrices, List.mem_cons, List.not_mem_nil, or_false] at hentry
      rcases hentry with rfl | rfl | rfl | rfl | rfl | rfl | rfl | rfl | rfl | rfl <;> rfl
    have hsimple : ∀ entry ∈ params, entry.2.IsSimple := by
      intro entry hentry
      obtain ⟨value, hvalue⟩ := Environment.bindable_of_withParams henv entry hentry
      exact (Environment.isSome_ofScalar (hparams entry hentry) hvalue).2
    have hplain := (run_ends code prices hsimple).result final hfinal
    intro name entry hentry
    obtain ⟨value, rfl⟩ := Option.isSome_iff_exists.1 (hcomplete _ (Record.mem_of_get? hentry))
    have hvalue : final.env.value? name = some value := by rw [Environment.value?, hentry]; rfl
    refine ⟨value, rfl, ?_⟩
    have hcovers := hleads.aligned.env name value hvalue
    rw [hbars] at hcovers
    cases value with
    | list items => exact (hplain name _ hvalue).elim
    | series values | flags values => exact hcovers
    | _ => trivial

/-- A script with a call of three results, a choice between kinds of values, and a condition. -/
def mixedScript : String :=
  "[upper, basis, lower] = ta.bb(close, n)\n" ++
  "level = on ? close[1] : 2\n" ++
  "if close > upper or word\n    strategy.close_all()"

def mixedParams : Params Float := [("n", .int 2), ("on", .flag true), ("word", .text "word")]

/-- The run of this script is given three answers, one of them to the condition, which has no truth
values. -/
theorem lengths_of_run_mixedScript :
    ∃ final, Script.run mixedScript flatPrices mixedParams = .ok final ∧
      final.unresolved = [3] ∧ (Logged.run mixedScript flatPrices mixedParams).answers.length = 3 ∧
      (∀ entry ∈ final.conditions, entry.2.length = 2) ∧
      (∀ name entry, Record.get? final.env name = some entry →
        ∃ value, entry = some value ∧ value.Fits 2) ∧
      (Logged.run mixedScript flatPrices mixedParams).outcome = .ok final ∧
      (Logged.run mixedScript flatPrices mixedParams).Covers 2 := by
  have hparams : ∀ entry ∈ mixedParams, entry.2.IsSingle := by
    simp [mixedParams, Scalar.IsSingle]
  have hreported : (Script.run mixedScript flatPrices mixedParams).toOption.map (·.unresolved) =
      some [3] := by
    decide +kernel
  have hanswers : (Logged.run mixedScript flatPrices mixedParams).answers.length = 3 := by
    decide +kernel
  obtain ⟨final, hfinal, hunresolved⟩ := Option.map_eq_some_iff.1 hreported
  rw [toOption_eq_some] at hfinal
  exact ⟨final, hfinal, hunresolved, hanswers,
    lengths_of_run mixedScript ⟨rfl, rfl, rfl, rfl, rfl⟩ hparams hfinal⟩

end Script

end Backtest
