import Backtest.Proofs.Script.Equality
import Backtest.Proofs.Script.Place

/-!
# Idle statements

A statement that a run reports has done nothing else.  A binding at the top that is unresolved, and
any binding under a branch, can be deleted, and a condition that is unresolved can be replaced by
`false`: the run binds the same names and gives the same signals, each at the same bars, and only
the report of the statement is gone (`reported_statements_are_idle`).

That a line is unresolved is known from the state in which its statement is run.  If no two
statements have one line, as in every script that is read from a text, it is enough that the line is
in the report: the same run with another number for that statement reports the same lines, so the
line is not among them unless the statement has reported itself.
-/

namespace Backtest.Script

open Text Backtest.Expr

variable {α : Type}

/-! ## Reports name statements -/

namespace Run

/-- All lines that are reported as unresolved are numbers, or have been reported before. -/
def ReportsFrom (numbers : List Nat) (run next : Run α) : Prop :=
  next.unresolved ⊆ run.unresolved ++ numbers

section Reports

variable {run next last : Run α} {numbers others : List Nat}

theorem reportsFrom_of_eq (hsame : next.unresolved = run.unresolved) :
    ReportsFrom numbers run next := by
  rw [ReportsFrom, hsame]
  exact List.subset_append_left _ _

theorem reportsFrom_reportUnresolved (run : Run α) (line : Nat) :
    ReportsFrom [line] run (run.reportUnresolved line) := List.Subset.refl _

theorem ReportsFrom.trans (hfirst : ReportsFrom numbers run next)
    (hsecond : ReportsFrom others next last) : ReportsFrom (numbers ++ others) run last := by
  intro line hline
  rcases List.mem_append.1 (hsecond hline) with hnext | hothers
  · rcases List.mem_append.1 (hfirst hnext) with hrun | hnumbers
    · exact List.mem_append_left _ hrun
    · exact List.mem_append_right _ (List.mem_append_left _ hnumbers)
  · exact List.mem_append_right _ (List.mem_append_right _ hothers)

variable [Arith α]

theorem assign_reportsFrom {line : Nat} {name : String} {expression : Chars}
    (hnext : run.assign line name expression = .ok next) : ReportsFrom [line] run next := by
  obtain ⟨value, _, hnext⟩ := Outcome.bind_eq_ok.1 hnext
  cases value with
  | none =>
      injection hnext with hnext
      exact hnext ▸ reportsFrom_reportUnresolved run line
  | some value =>
      injection hnext with hnext
      exact hnext ▸ reportsFrom_of_eq rfl

theorem destructure_reportsFrom {line : Nat} {names : List String} {triple : Triple}
    {arguments : List Chars} (hnext : run.destructure line names triple arguments = .ok next) :
    ReportsFrom [line] run next := by
  obtain ⟨results, _, hnext⟩ := Outcome.bind_eq_ok.1 hnext
  cases results with
  | none =>
      injection hnext with hnext
      exact hnext ▸ reportsFrom_reportUnresolved run line
  | some results =>
      injection hnext with hnext
      exact hnext ▸ reportsFrom_of_eq rfl

theorem condition_reportsFrom {line : Nat} {text : Chars} {tested : Run α × Flags}
    (htested : run.condition line text = .ok tested) : ReportsFrom [line] run tested.1 := by
  obtain ⟨value, _, htested⟩ := Outcome.bind_eq_ok.1 htested
  split at htested
  · injection htested with htested
    exact htested ▸ reportsFrom_of_eq rfl
  · injection htested with htested
    exact htested ▸ reportsFrom_reportUnresolved run line

mutual

theorem statement_reportsFrom (content : Statement) {guard : Option Guard} {run next : Run α}
    (hnext : statement guard run content = .ok next) : ReportsFrom content.numbers run next := by
  cases content with
  | signal line kind label =>
      rw [statement] at hnext
      injection hnext with hnext
      exact hnext ▸ reportsFrom_of_eq rfl
  | assign line name expression =>
      rw [statement] at hnext
      split at hnext
      · injection hnext with hnext
        exact hnext ▸ reportsFrom_of_eq rfl
      · exact assign_reportsFrom hnext
  | destructure line names triple arguments =>
      rw [statement] at hnext
      split at hnext
      · injection hnext with hnext
        exact hnext ▸ reportsFrom_of_eq rfl
      · exact destructure_reportsFrom hnext
  | chain line branches otherwise =>
      rw [statement_chain] at hnext
      obtain ⟨reached, hreached, hnext⟩ := Outcome.bind_eq_ok.1 hnext
      refine (chain_reportsFrom branches hreached).trans ?_
      rw [lastPart] at hnext
      split at hnext
      · injection hnext with hnext
        exact hnext ▸ reportsFrom_of_eq rfl
      · have hlast := block_reportsFrom otherwise hnext
        exact hlast

/-- A line that is reported is the number of a statement or of the head of a branch. -/
theorem block_reportsFrom (statements : List Statement) {guard : Option Guard} {run next : Run α}
    (hnext : block guard run statements = .ok next) :
    ReportsFrom (Statement.blockNumbers statements) run next := by
  cases statements with
  | nil =>
      rw [block] at hnext
      injection hnext with hnext
      exact hnext ▸ reportsFrom_of_eq rfl
  | cons first rest =>
      rw [block] at hnext
      obtain ⟨after, hfirst, hrest⟩ := Outcome.bind_eq_ok.1 hnext
      exact (statement_reportsFrom first hfirst).trans (block_reportsFrom rest hrest)

theorem chain_reportsFrom (branches : List Branch) {parent : Option Flags} {taken : Flags}
    {run : Run α} {reached : Run α × Flags}
    (hreached : chain parent run taken branches = .ok reached) :
    ReportsFrom (Branch.numbers branches) run reached.1 := by
  cases branches with
  | nil =>
      rw [chain] at hreached
      injection hreached with hreached
      exact hreached ▸ reportsFrom_of_eq rfl
  | cons first others =>
      obtain ⟨line, text, body⟩ := first
      rw [chain_cons] at hreached
      obtain ⟨tested, htested, hreached⟩ := Outcome.bind_eq_ok.1 hreached
      obtain ⟨inner, hinner, hreached⟩ := Outcome.bind_eq_ok.1 hreached
      have hbody := block_reportsFrom body hinner
      have hlater := hbody.trans (chain_reportsFrom others hreached)
      exact (condition_reportsFrom htested).trans hlater

end

end Reports

end Run

/-! ## What a run gives -/

namespace Run

/-- The signals of a run, each as its kind, its label and the bars at which it is given. -/
def tape (run : Run α) : List (SignalKind × Option String × Flags) :=
  run.signals.map fun signal => (signal.kind, signal.label, run.mask signal.guard)

variable {omission : Omission} {run other : Run α}

theorem Matches.tape_eq (hmatches : Matches omission run other) : other.tape = run.tape := by
  have hsame : List.Forall₂ (· = ·) run.tape other.tape := by
    rw [tape, tape, List.forall₂_map_left_iff, List.forall₂_map_right_iff]
    apply hmatches.signals.imp
    intro signal signal' hsignal
    rw [hsignal.kind, hsignal.label, hsignal.guard.mask]
  rw [List.forall₂_eq_eq_eq] at hsame
  exact hsame.symm

theorem Matches.signals_eq (hmatches : Matches omission run other)
    (hnumbers : omission.renumbers = false) : other.signals = run.signals := by
  have hsame : List.Forall₂ (· = ·) run.signals other.signals := by
    apply hmatches.signals.imp
    rintro ⟨kind, guard, label⟩ ⟨kind', guard', label'⟩ ⟨hkind, hlabel, hguard⟩
    dsimp only at hkind hlabel hguard
    rw [hkind, hlabel, hguard.number hnumbers]
  rw [List.forall₂_eq_eq_eq] at hsame
  exact hsame.symm

theorem Matches.conditions_eq (hmatches : Matches omission run other)
    (hnumbers : omission.renumbers = false) : other.conditions = run.conditions := by
  rw [conditions, conditions, hmatches.masks hnumbers, mask, mask, hmatches.bars]

end Run

/-! ## Scripts with a filled place -/

variable [Arith α] {prices : Prices α} {params : Params α}

theorem Place.exists_fill_eq (place : Place) (statements : List Statement) :
    ∃ rest, place.fill statements = place.before ++ rest := by
  cases place with
  | here => exact ⟨_, rfl⟩
  | inBranch => exact ⟨_, rfl⟩
  | inLast => exact ⟨_, rfl⟩

theorem Run.guarded_start {run : Run α} (hrun : Run.start prices params = .ok run) :
    run.Guarded := by
  obtain ⟨env, _, hrun⟩ := Outcome.bind_eq_ok.1 hrun
  injection hrun with hrun
  rw [← hrun]
  exact ⟨rfl, rfl, .nil, fun _ => rfl, omits_none_iff.2 rfl, omits_none_iff.2 rfl⟩

/-- A finished run has come to every place. -/
theorem exists_execute_before {place : Place} {statements : List Statement} {final : Run α}
    (hrun : execute (place.fill statements) prices params = .ok final) :
    ∃ mid, execute place.before prices params = .ok mid := by
  obtain ⟨start, hstart, hrun⟩ := Outcome.bind_eq_ok.1 hrun
  obtain ⟨rest, hfill⟩ := place.exists_fill_eq statements
  rw [hfill, Run.block_append] at hrun
  obtain ⟨mid, hmid, _⟩ := Outcome.bind_eq_ok.1 hrun
  exact ⟨mid, Outcome.bind_eq_ok.2 ⟨start, hstart, hmid⟩⟩

/-- A script with another filling of a place ends in a state that matches. -/
theorem execute_fill {omission : Omission} {place : Place} {first second : List Statement}
    {mid final : Run α} (hmid : execute place.before prices params = .ok mid)
    (halike : place.Alike omission mid.context none first second)
    (hrun : execute (place.fill first) prices params = .ok final) :
    ∃ last, execute (place.fill second) prices params = .ok last ∧ final.Matches omission last := by
  obtain ⟨start, hstart, hrun⟩ := Outcome.bind_eq_ok.1 hrun
  have hcontext : ∀ other, Run.block none start place.before = .ok other →
      other.context = mid.context := by
    intro other hother
    have hsame : execute place.before prices params = .ok other :=
      Outcome.bind_eq_ok.2 ⟨start, hstart, hother⟩
    rw [hmid] at hsame
    injection hsame with hsame
    rw [hsame]
  obtain ⟨last, hlast, hcontinues⟩ :=
    (place.continues halike (Run.guarded_start hstart) .none hcontext).exists_ok hrun
  exact ⟨last, Outcome.bind_eq_ok.2 ⟨start, hstart, hlast⟩, hcontinues.reached⟩

/-! ## Idle statements -/

/-- A binding whose right side has no value. -/
def Statement.Fails (context : Context α) : Statement → Prop
  | .assign _ _ expression => evaluate? context expression = .ok none
  | .destructure _ _ triple arguments => evaluateTriple? context triple arguments = .ok none
  | .signal _ _ _ | .chain _ _ _ => False

/-- A condition that has no truth values. -/
def ConditionFails (text : Chars) (context : Context α) : Prop :=
  ∃ found, evaluate? context text = .ok found ∧ found.bind (·.truth context.bars) = none

namespace Run

variable {run : Run α} {guard : Guard} {content : Statement}

theorem statement_of_fails (hfails : content.Fails run.context) :
    statement none run content = .ok (run.reportUnresolved content.line) := by
  cases content with
  | assign line name expression =>
      rw [statement, assign]
      exact Outcome.bind_eq_ok.2 ⟨none, hfails, rfl⟩
  | destructure line names triple arguments =>
      rw [statement, destructure]
      exact Outcome.bind_eq_ok.2 ⟨none, hfails, rfl⟩
  | signal => exact hfails.elim
  | chain => exact hfails.elim

theorem statement_under_guard (hbinds : ¬ content.Acts) :
    statement (some guard) run content = .ok (run.reportSkipped content.line) := by
  cases content with
  | assign line name expression => rw [statement]; rfl
  | destructure line names triple arguments => rw [statement]; rfl
  | signal => exact absurd trivial hbinds
  | chain => exact absurd trivial hbinds

theorem condition_of_fails {text : Chars} (hfails : ConditionFails text run.context) (line : Nat) :
    run.condition line text =
      .ok (run.reportUnresolved line, List.replicate run.bars false) := by
  obtain ⟨found, hfound, hnone⟩ := hfails
  refine Outcome.bind_eq_ok.2 ⟨found, hfound, ?_⟩
  change found.bind (·.truth run.bars) = none at hnone
  rw [hnone]
  rfl

theorem condition_false (run : Run α) (line : Nat) :
    run.condition line "false".toList = .ok (run, List.replicate run.bars false) :=
  Outcome.bind_eq_ok.2 ⟨some (.flag false), rfl, rfl⟩

/-- The number of a condition that has truth values does not matter. -/
theorem condition_eq_of_not_fails {text : Chars} (hholds : ¬ ConditionFails text run.context)
    (line line' : Nat) : run.condition line text = run.condition line' text := by
  cases hfound : evaluate? run.context text with
  | error fault =>
      rw [condition, condition, hfound]
      rfl
  | ok found =>
      cases htruth : found.bind (·.truth run.bars) with
      | none => exact absurd ⟨found, hfound, htruth⟩ hholds
      | some flags =>
          have hreads (line : Nat) : run.condition line text = .ok (run, flags) := by
            refine Outcome.bind_eq_ok.2 ⟨found, hfound, ?_⟩
            rw [htruth]
            rfl
          rw [hreads line, hreads line']

/-- The number of a binding that has a value does not matter. -/
theorem statement_renumbered_of_not_fails (hbinds : ¬ content.Acts)
    (hholds : ¬ content.Fails run.context) (renumber : Nat → Nat) :
    statement none run (content.renumbered renumber) = statement none run content := by
  cases content with
  | assign line name expression =>
      rw [Statement.renumbered, statement, statement, assign, assign]
      cases hfound : evaluate? run.context expression with
      | error fault => rfl
      | ok found =>
          cases found with
          | none => exact absurd hfound hholds
          | some value => rfl
  | destructure line names triple arguments =>
      rw [Statement.renumbered, statement, statement, destructure, destructure]
      cases hfound : evaluateTriple? run.context triple arguments with
      | error fault => rfl
      | ok found =>
          cases found with
          | none => exact absurd hfound hholds
          | some results => rfl
  | signal => exact absurd trivial hbinds
  | chain => exact absurd trivial hbinds

omit [Arith α] in
/-- Reporting a line changes nothing but the report. -/
theorem Guarded.report_continues {omission : Omission} {unresolved skipped : List Nat}
    (hrun : run.Guarded) (hunresolved : Omits omission.unresolved unresolved run.unresolved)
    (hskipped : Omits omission.skipped skipped run.skipped) :
    Continues omission run run { run with unresolved := unresolved, skipped := skipped } run := by
  have hgrows : run.Grows { run with unresolved := unresolved, skipped := skipped } :=
    ⟨rfl, List.prefix_rfl⟩
  refine ⟨⟨rfl, rfl, ?_, fun _ => rfl, hunresolved, hskipped⟩, hgrows, .refl run⟩
  exact (hrun.signals_grow hgrows (.refl run)).imp fun _ _ hsame =>
    ⟨hsame.kind, hsame.label, hsame.guard.of_nothing⟩

/-- Branches whose conditions do alike, with the same body. -/
theorem chain_condition_continues {omission : Omission} {head head' : Nat} {text text' : Chars}
    (hcondition : Outcome.Alike (ContinuesWith omission run run) (run.condition head text)
      (run.condition head' text')) (parent : Option Flags) (taken : Flags)
    (body : List Statement) :
    Outcome.Alike (ContinuesWith omission run run) (chain parent run taken [.mk head text body])
      (chain parent run taken [.mk head' text' body]) := by
  rw [chain_cons, chain_cons]
  refine Outcome.alike_bind hcondition fun first second htested => ?_
  obtain ⟨tested, holds⟩ := first
  obtain ⟨reached, held⟩ := second
  obtain ⟨htested, rfl⟩ := htested
  obtain ⟨hentered, hguard⟩ := htested.reached.register (active parent taken held)
  refine Outcome.alike_bind (block_continues body hentered.reached (.some hguard))
    fun inner inner' hinner => .ok ⟨htested.trans (hentered.trans hinner), rfl⟩

end Run

namespace Place

variable {context : Context α} {content : Statement}

theorem alike_of_fails (hfails : content.Fails context) (before after : List Statement) :
    (here before after).Alike ⟨some content.line, none, true⟩ context none [content] [] := by
  refine ⟨List.cons_ne_nil _ _, .inr rfl, fun mid inner hmid hunder hself _ => ?_⟩
  have hinner : inner = none := hunder
  rw [hinner, Run.block_singleton, Run.statement_of_fails (hmid ▸ hfails), Run.block]
  exact .ok (hself.report_continues (omits_append_singleton _ _) (omits_none_iff.2 rfl))

theorem alike_of_inner {place : Place} (hinner : place.IsInner) (hbinds : ¬ content.Acts) :
    place.Alike ⟨none, some content.line, true⟩ context none [content] [] := by
  refine ⟨List.cons_ne_nil _ _, .inr rfl, fun mid inner _ hunder hself _ => ?_⟩
  obtain ⟨guard, rfl⟩ : ∃ guard, inner = some guard := by
    cases place with
    | here => exact hinner.elim
    | inBranch => exact Option.isSome_iff_exists.1 hunder
    | inLast => exact Option.isSome_iff_exists.1 hunder
  rw [Run.block_singleton, Run.statement_under_guard hbinds, Run.block]
  exact .ok (hself.report_continues (omits_none_iff.2 rfl) (omits_append_singleton _ _))

section Conditions

variable {omission : Omission} {line head head' : Nat} {text text' : Chars} {place : Place}
variable {earlier later : List Branch} {body otherwise : List Statement}

/-- Chains in which one condition is exchanged for another one that does alike. -/
theorem alike_of_condition
    (hcondition : ∀ run : Run α, run.context = context → run.Guarded →
      Outcome.Alike (Run.ContinuesWith omission run run) (run.condition head text)
        (run.condition head' text')) :
    place.Alike omission context none
      [.chain line (earlier ++ .mk head text body :: later) otherwise]
      [.chain line (earlier ++ .mk head' text' body :: later) otherwise] := by
  refine ⟨List.cons_ne_nil _ _, .inl (List.cons_ne_nil _ _), fun mid inner hmid _ hself _ => ?_⟩
  rw [Run.block_singleton, Run.block_singleton]
  refine Run.statement_branch_continues hself fun reached taken hreached hguarded => ?_
  exact Run.chain_condition_continues (hcondition reached (hreached.trans hmid) hguarded) _ _ body

theorem alike_false (hfails : ConditionFails text context) :
    place.Alike ⟨some head, none, false⟩ context none
      [.chain line (earlier ++ .mk head text body :: later) otherwise]
      [.chain line (earlier ++ .mk head "false".toList body :: later) otherwise] := by
  refine alike_of_condition fun run hrun hguarded => ?_
  rw [Run.condition_of_fails (hrun ▸ hfails), Run.condition_false]
  exact .ok ⟨hguarded.report_continues (omits_append_singleton _ _) (omits_none_iff.2 rfl), rfl⟩

/-- The number of a condition that has truth values does not matter. -/
theorem alike_of_not_fails (hholds : ¬ ConditionFails text context) :
    place.Alike .nothing context none
      [.chain line (earlier ++ .mk head text body :: later) otherwise]
      [.chain line (earlier ++ .mk head' text body :: later) otherwise] := by
  refine alike_of_condition fun run hrun hguarded => ?_
  rw [Run.condition_eq_of_not_fails (hrun ▸ hholds) head head']
  exact Run.condition_continues hguarded head' text

end Conditions

/-- The number of a binding that has a value does not matter. -/
theorem alike_renumbered {content : Statement} (hbinds : ¬ content.Acts)
    (hholds : ¬ content.Fails context) (renumber : Nat → Nat) (before after : List Statement) :
    (here before after).Alike .nothing context none [content] [content.renumbered renumber] := by
  refine ⟨List.cons_ne_nil _ _, .inl (List.cons_ne_nil _ _),
    fun mid inner hmid hunder hself hsettled => ?_⟩
  have hinner : inner = none := hunder
  rw [hinner] at hsettled
  rw [hinner, Run.block_singleton, Run.block_singleton,
    Run.statement_renumbered_of_not_fails hbinds (hmid ▸ hholds)]
  exact Run.statement_continues content hself hsettled

end Place

/-! ## Lines that are reported -/

/-- A line is in the report because the statement on it has failed in the state that the run has
come to.  If all lines are different, it is enough that the line is in the report. -/
def Reported (statements : List Statement) (prices : Prices α) (params : Params α) (final : Run α)
    (place : Place) (line : Nat) (fails : Context α → Prop) : Prop :=
  (∃ mid, execute place.before prices params = .ok mid ∧ fails mid.context) ∨
    (Statement.blockNumbers statements).Nodup ∧ line ∈ final.unresolved

/-- A line of its own is not in the report, if its number could be another one. -/
theorem not_mem_unresolved {place : Place} {first second : List Statement} {mid final : Run α}
    {line line' : Nat} {front back : List Nat}
    (hmid : execute place.before prices params = .ok mid)
    (halike : place.Alike .nothing mid.context none first second)
    (hrun : execute (place.fill first) prices params = .ok final)
    (hdistinct : (Statement.blockNumbers (place.fill first)).Nodup)
    (hfirst : Statement.blockNumbers first = front ++ line :: back)
    (hsecond : Statement.blockNumbers second = front ++ line' :: back) (hne : line ≠ line') :
    line ∉ final.unresolved := by
  intro hline
  obtain ⟨last, hlast, hmatches⟩ := execute_fill hmid halike hrun
  obtain ⟨start, hstart, hlast⟩ := Outcome.bind_eq_ok.1 hlast
  obtain ⟨env, _, hstart⟩ := Outcome.bind_eq_ok.1 hstart
  injection hstart with hstart
  have hreported : line ∈ Statement.blockNumbers (place.fill second) := by
    rw [← omits_none_iff.1 hmatches.unresolved] at hline
    have hmem := Run.block_reportsFrom _ hlast hline
    rw [← hstart] at hmem
    exact hmem
  obtain ⟨outer, outer', hnumbers⟩ := place.exists_numbers_fill
  rw [hnumbers, hfirst] at hdistinct
  rw [hnumbers, hsecond] at hreported
  grind

/-- A line that is reported belongs to a statement that fails, if the number of one that does not
fail does not matter. -/
theorem Reported.exists_fails {place : Place} {first : List Statement} {final : Run α} {line : Nat}
    {fails : Context α → Prop} (hrun : execute (place.fill first) prices params = .ok final)
    (hreported : Reported (place.fill first) prices params final place line fails)
    (hnumber : ∀ context, ¬ fails context → ∃ second front back,
      place.Alike .nothing context none first second ∧
        Statement.blockNumbers first = front ++ line :: back ∧
        Statement.blockNumbers second = front ++ (line + 1) :: back) :
    ∃ mid, execute place.before prices params = .ok mid ∧ fails mid.context := by
  rcases hreported with hfails | ⟨hdistinct, hline⟩
  · exact hfails
  · obtain ⟨mid, hmid⟩ := exists_execute_before hrun
    refine ⟨mid, hmid, ?_⟩
    by_contra hholds
    obtain ⟨second, front, back, halike, hfirst, hsecond⟩ := hnumber mid.context hholds
    exact not_mem_unresolved hmid halike hrun hdistinct hfirst hsecond (Nat.succ_ne_self line).symm
      hline

theorem Statement.numbers_of_binds {content : Statement} (hbinds : ¬ content.Acts) :
    content.numbers = [content.line] := by
  cases content with
  | assign => rfl
  | destructure => rfl
  | signal => exact absurd trivial hbinds
  | chain => exact absurd trivial hbinds

/-! ## Whole runs -/

/-- What a finished run of some statements reports can be left out of them. -/
structure IdleWhereReported (statements : List Statement) (prices : Prices α) (params : Params α)
    (final : Run α) : Prop where
  /-- A binding at the top that is unresolved can be deleted. -/
  unresolved : ∀ before content after, statements = before ++ content :: after → ¬ content.Acts →
    Reported statements prices params final (.here before after) content.line
      (fun context : Context α => content.Fails context) →
    ∃ last, execute (before ++ after) prices params = .ok last ∧
      last.env = final.env ∧ last.tape = final.tape ∧
      Omits (some content.line) final.unresolved last.unresolved ∧ last.skipped = final.skipped
  /-- A binding under a branch is skipped, and can be deleted. -/
  skipped : ∀ place content, statements = Place.fill [content] place → place.IsInner →
    ¬ content.Acts →
    ∃ last, execute (place.fill []) prices params = .ok last ∧
      last.env = final.env ∧ last.tape = final.tape ∧ last.unresolved = final.unresolved ∧
      Omits (some content.line) final.skipped last.skipped
  /-- A condition that is unresolved can be replaced by `false`. -/
  condition : ∀ place line earlier head text body later otherwise,
    statements = Place.fill [.chain line (earlier ++ .mk head text body :: later) otherwise] place →
    Reported statements prices params final place head (ConditionFails text) →
    ∃ last, execute
        (place.fill [.chain line (earlier ++ .mk head "false".toList body :: later) otherwise])
        prices params = .ok last ∧
      last.env = final.env ∧ last.conditions = final.conditions ∧ last.signals = final.signals ∧
      Omits (some head) final.unresolved last.unresolved ∧ last.skipped = final.skipped

/-- Statements that a finished run reports have no other effect. -/
theorem reported_statements_are_idle {statements : List Statement} {final : Run α}
    (hrun : execute statements prices params = .ok final) :
    IdleWhereReported statements prices params final := by
  constructor
  · rintro before content after rfl hbinds hreported
    have hfilled : execute ((Place.here before after).fill [content]) prices params = .ok final :=
      hrun
    have hnumber : ∀ context : Context α, ¬ content.Fails context → ∃ second front back,
        (Place.here before after).Alike .nothing context none [content] second ∧
          Statement.blockNumbers [content] = front ++ content.line :: back ∧
          Statement.blockNumbers second = front ++ (content.line + 1) :: back := by
      intro context hholds
      refine ⟨_, [], [], Place.alike_renumbered hbinds hholds (· + 1) before after, ?_, ?_⟩
      · rw [Statement.blockNumbers, Statement.numbers_of_binds hbinds]
        rfl
      · cases content with
        | assign => rfl
        | destructure => rfl
        | signal => exact absurd trivial hbinds
        | chain => exact absurd trivial hbinds
    obtain ⟨mid, hmid, hfails⟩ := Reported.exists_fails hfilled hreported hnumber
    obtain ⟨last, hlast, hmatches⟩ :=
      execute_fill hmid (Place.alike_of_fails hfails before after) hfilled
    exact ⟨last, hlast, hmatches.env, hmatches.tape_eq, hmatches.unresolved,
      omits_none_iff.1 hmatches.skipped⟩
  · rintro place content rfl hinner hbinds
    obtain ⟨mid, hmid⟩ := exists_execute_before hrun
    obtain ⟨last, hlast, hmatches⟩ :=
      execute_fill hmid (Place.alike_of_inner hinner hbinds) hrun
    exact ⟨last, hlast, hmatches.env, hmatches.tape_eq, omits_none_iff.1 hmatches.unresolved,
      hmatches.skipped⟩
  · rintro place line earlier head text body later otherwise rfl hreported
    have hnumbers (number : Nat) : Statement.blockNumbers
        [.chain line (earlier ++ .mk number text body :: later) otherwise] =
          Branch.numbers earlier ++ number :: (Statement.blockNumbers body ++
            (Branch.numbers later ++ Statement.blockNumbers otherwise)) := by
      simp only [Statement.blockNumbers, Statement.numbers, Branch.numbers_append, Branch.numbers,
        List.append_assoc, List.cons_append, List.append_nil]
    obtain ⟨mid, hmid, hfails⟩ := hreported.exists_fails hrun fun context hholds =>
      ⟨_, _, _, Place.alike_of_not_fails hholds, hnumbers head, hnumbers (head + 1)⟩
    obtain ⟨last, hlast, hmatches⟩ := execute_fill hmid (Place.alike_false hfails) hrun
    exact ⟨last, hlast, hmatches.env, hmatches.conditions_eq rfl, hmatches.signals_eq rfl,
      hmatches.unresolved, omits_none_iff.1 hmatches.skipped⟩

/-- In a script that is read from a text all lines are different. -/
theorem nodup_numbers_parse (code : Chars) : (Statement.blockNumbers (parse code)).Nodup :=
  (layout_of_parse code).rising.imp Nat.ne_of_lt

/-- A script with an unresolved binding, an unresolved condition, and a binding that is all of the
last part of a chain. -/
def idleScript : String :=
  "gap = missing + 1\nif missing > 0\n    inner = 1\n    strategy.entry(\"L\", strategy.long)\n" ++
    "else\n    other = 2\nif close > 0\n    strategy.entry(\"S\", strategy.short)"

def idleFront : List Statement := [.assign 1 "gap" "missing + 1".toList]

def idleBody : List Statement := [.assign 3 "inner" "1".toList, .signal 4 .openLong (some "L")]

def idleLast : List Statement := [.assign 6 "other" "2".toList]

/-- The statements behind the first one, with some condition and some last part of the chain. -/
def idleRest (condition : Chars) (otherwise : List Statement) : List Statement :=
  [.chain 2 [.mk 2 condition idleBody] otherwise,
    .chain 7 [.mk 7 "close > 0".toList [.signal 8 .openShort (some "S")]] []]

theorem reported_statements_are_idle_missing :
    parse idleScript.toList = idleFront ++ idleRest "missing > 0".toList idleLast ∧
    ∃ final : Run Float,
      execute (idleFront ++ idleRest "missing > 0".toList idleLast) flatPrices [] = .ok final ∧
      final.unresolved = [1, 2] ∧ final.skipped = [3, 6] ∧
      (∃ last, execute (idleRest "missing > 0".toList idleLast) flatPrices [] = .ok last ∧
        last.tape = final.tape ∧ Omits (some 1) final.unresolved last.unresolved) ∧
      (∃ last, execute (idleFront ++ idleRest "missing > 0".toList []) flatPrices [] = .ok last ∧
        last.tape = final.tape ∧ Omits (some 6) final.skipped last.skipped) ∧
      ∃ last, execute (idleFront ++ idleRest "false".toList idleLast) flatPrices [] = .ok last ∧
        last.signals = final.signals ∧ Omits (some 2) final.unresolved last.unresolved := by
  have hparse : parse idleScript.toList = idleFront ++ idleRest "missing > 0".toList idleLast := by
    decide +kernel
  have hreports : (execute (idleFront ++ idleRest "missing > 0".toList idleLast) flatPrices
      []).toOption.map (fun final : Run Float => (final.unresolved, final.skipped)) =
        some ([1, 2], [3, 6]) := by
    decide +kernel
  obtain ⟨final, hfinal, hboth⟩ := Option.map_eq_some_iff.1 hreports
  obtain ⟨hunresolved, hskipped⟩ := Prod.mk.inj hboth
  have hrun := Outcome.toOption_eq_some.1 hfinal
  have hdistinct := hparse ▸ nodup_numbers_parse idleScript.toList
  have hbinding : 1 ∈ final.unresolved := hunresolved ▸ List.mem_cons_self
  have hcondition : 2 ∈ final.unresolved := hunresolved ▸ List.mem_cons_of_mem 1 List.mem_cons_self
  have hidle := reported_statements_are_idle hrun
  refine ⟨hparse, final, hrun, hunresolved, hskipped, ?_, ?_, ?_⟩
  · obtain ⟨last, hlast, _, htape, homits, _⟩ := hidle.unresolved [] _ _ rfl id
      (.inr ⟨hdistinct, hbinding⟩)
    exact ⟨last, hlast, htape, homits⟩
  · obtain ⟨last, hlast, _, htape, _, homits⟩ := hidle.skipped
      (.inLast idleFront 2 [.mk 2 "missing > 0".toList idleBody] (.here [] [])
        (idleRest "missing > 0".toList idleLast).tail) _ rfl trivial id
    exact ⟨last, hlast, htape, homits⟩
  · obtain ⟨last, hlast, _, _, hsignals, homits, _⟩ := hidle.condition
      (.here idleFront (idleRest "missing > 0".toList idleLast).tail) 2 [] 2 "missing > 0".toList
      idleBody [] idleLast rfl (.inr ⟨hdistinct, hcondition⟩)
    exact ⟨last, hlast, hsignals, homits⟩

end Backtest.Script
