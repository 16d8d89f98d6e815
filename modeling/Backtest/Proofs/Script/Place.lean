import Backtest.Proofs.Script.Account
import Backtest.Proofs.Script.Layout
import Backtest.Proofs.Script.Omission

/-!
# Places in a script

A place stands between the statements of a block, at the top or under branches, and it can be filled
with any statements.  What is done at a place decides all that comes after it: if two fillings take
every state that can come there to matching states, then the scripts that are filled with them end
in matching states (`Place.continues`).

Under a branch no name is bound, so that every state that comes to a place has the names that were
there after the statements at the top before it.
-/

namespace Backtest.Script

open Text Backtest.Expr

variable {α : Type}

/-- A place between the statements of a block or of a block under it. -/
inductive Place where
  | here (before after : List Statement)
  /-- A place in the body of a branch. -/
  | inBranch (before : List Statement) (line : Nat) (earlier : List Branch) (head : Nat)
      (condition : Chars) (inner : Place) (later : List Branch) (otherwise after : List Statement)
  /-- A place in the last part of a chain. -/
  | inLast (before : List Statement) (line : Nat) (branches : List Branch) (inner : Place)
      (after : List Statement)

namespace Place

/-- The statements with others put in at a place. -/
def fill (statements : List Statement) : Place → List Statement
  | .here before after => before ++ (statements ++ after)
  | .inBranch before line earlier head condition inner later otherwise after =>
      before ++ .chain line (earlier ++ .mk head condition (inner.fill statements) :: later)
        otherwise :: after
  | .inLast before line branches inner after =>
      before ++ .chain line branches (inner.fill statements) :: after

/-- The statements of the block itself that come before a place. -/
def before : Place → List Statement
  | .here before _ | .inBranch before _ _ _ _ _ _ _ _ | .inLast before _ _ _ _ => before

/-- A place is in a block under this one. -/
def IsInner : Place → Prop
  | .here _ _ => False
  | .inBranch _ _ _ _ _ _ _ _ _ | .inLast _ _ _ _ _ => True

/-- The guards that a place can be under, in a block under a guard. -/
def Under (guard inner : Option Guard) : Place → Prop
  | .here _ _ => inner = guard
  | .inBranch _ _ _ _ _ _ _ _ _ | .inLast _ _ _ _ _ => inner.isSome = true

theorem Under.isSome {guard : Guard} {inner : Option Guard} {place : Place}
    (hunder : place.Under (some guard) inner) : inner.isSome = true := by
  cases place with
  | here before after => exact hunder ▸ rfl
  | inBranch => exact hunder
  | inLast => exact hunder

theorem fill_ne_nil {statements : List Statement} (hne : statements ≠ []) (place : Place) :
    place.fill statements ≠ [] := by
  cases place with
  | here before after =>
      exact List.append_ne_nil_of_right_ne_nil _ (List.append_ne_nil_of_left_ne_nil hne _)
  | inBranch => exact List.append_ne_nil_of_right_ne_nil _ (List.cons_ne_nil _ _)
  | inLast => exact List.append_ne_nil_of_right_ne_nil _ (List.cons_ne_nil _ _)

/-- The numbers around a place do not depend on what it is filled with. -/
theorem exists_numbers_fill (place : Place) : ∃ front back, ∀ statements,
    Statement.blockNumbers (place.fill statements) =
      front ++ (Statement.blockNumbers statements ++ back) := by
  induction place with
  | here before after =>
      refine ⟨Statement.blockNumbers before, Statement.blockNumbers after, fun statements => ?_⟩
      rw [fill, Statement.blockNumbers_append, Statement.blockNumbers_append]
  | inBranch before line earlier head condition inner later last after ih =>
      obtain ⟨front, back, hinner⟩ := ih
      refine ⟨Statement.blockNumbers before ++ (Branch.numbers earlier ++ head :: front),
        back ++ (Branch.numbers later ++ (Statement.blockNumbers last ++
          Statement.blockNumbers after)), fun statements => ?_⟩
      simp only [fill, Statement.blockNumbers_append, Statement.blockNumbers, Statement.numbers,
        Branch.numbers_append, Branch.numbers, hinner, List.append_assoc, List.cons_append]
  | inLast before line branches inner after ih =>
      obtain ⟨front, back, hinner⟩ := ih
      refine ⟨Statement.blockNumbers before ++ (Branch.numbers branches ++ front),
        back ++ Statement.blockNumbers after, fun statements => ?_⟩
      simp only [fill, Statement.blockNumbers_append, Statement.blockNumbers, Statement.numbers,
        hinner, List.append_assoc]

end Place

namespace Run

variable {omission : Omission} {run other next last : Run α} {guard guard' : Guard}

/-! ## One and the same run -/

/-- The guards of all signals have a series, so that the run matches itself. -/
abbrev Guarded (run : Run α) : Prop := Matches .nothing run run

/-- A guard that has a series. -/
abbrev Settled (run : Run α) (guard : Option Guard) : Prop :=
  SameGuards .nothing run run guard guard

theorem SameGuard.of_nothing (hguard : SameGuard .nothing run other guard guard') :
    SameGuard omission run other guard guard' :=
  ⟨hguard.within, hguard.within', hguard.mask, fun _ => hguard.number rfl⟩

theorem Settled.sameGuards {guard : Option Guard} (hsettled : run.Settled guard) :
    SameGuards omission run run guard guard := by
  cases hsettled with
  | some hguard => exact .some hguard.of_nothing
  | none => exact .none

variable [Arith α]

theorem Guarded.block {guard : Option Guard} {statements : List Statement} (hrun : run.Guarded)
    (hguard : run.Settled guard) (hnext : block guard run statements = .ok next) :
    Continues .nothing run run next next := by
  obtain ⟨reached, hreached, hcontinues⟩ :=
    (block_continues statements hrun hguard).exists_ok hnext
  rw [hnext] at hreached
  injection hreached with hreached
  exact hreached ▸ hcontinues

theorem Guarded.chain {branches : List Branch} {parent : Option Flags} {taken : Flags}
    {reached : Run α × Flags} (hrun : run.Guarded)
    (hreached : chain parent run taken branches = .ok reached) :
    Continues .nothing run run reached.1 reached.1 := by
  obtain ⟨same, hsame, hcontinues⟩ :=
    (chain_continues branches hrun parent taken).exists_ok hreached
  rw [hreached] at hsame
  injection hsame with hsame
  exact hsame ▸ hcontinues.1

theorem Guarded.condition {line : Nat} {text : Chars} {tested : Run α × Flags} (hrun : run.Guarded)
    (htested : run.condition line text = .ok tested) :
    Continues .nothing run run tested.1 tested.1 := by
  obtain ⟨same, hsame, hcontinues⟩ := (condition_continues hrun line text).exists_ok htested
  rw [htested] at hsame
  injection hsame with hsame
  exact hsame ▸ hcontinues.1

/-! ## Chains with another part -/

theorem chain_append (parent : Option Flags) (run : Run α) (taken : Flags)
    (first second : List Branch) :
    chain parent run taken (first ++ second) =
      chain parent run taken first >>= fun reached => chain parent reached.1 reached.2 second := by
  induction first generalizing run taken with
  | nil => rfl
  | cons branch rest ih =>
      obtain ⟨line, text, body⟩ := branch
      rw [List.cons_append, chain_cons, chain_cons, bind_assoc]
      congr 1
      funext tested
      dsimp only
      rw [bind_assoc]
      congr 1
      funext inner
      exact ih inner _

/-- Chains that differ in one branch. -/
theorem chain_branch_continues {parent : Option Flags} {first second : Branch}
    {earlier later : List Branch} (hrun : run.Guarded) (taken : Flags)
    (hbranch : ∀ (mid : Run α) (taken : Flags), mid.context = run.context → mid.Guarded →
      Outcome.Alike (ContinuesWith omission mid mid) (chain parent mid taken [first])
        (chain parent mid taken [second])) :
    Outcome.Alike (ContinuesWith omission run run)
      (chain parent run taken (earlier ++ first :: later))
      (chain parent run taken (earlier ++ second :: later)) := by
  rw [chain_append, chain_append]
  refine Outcome.alike_bind_self fun reached hreached => ?_
  have hbefore := hrun.chain hreached
  rw [← List.singleton_append, ← List.singleton_append (x := second), chain_append, chain_append]
  have hcontext := (chain_keeps earlier hreached).1.context
  refine Outcome.alike_bind (hbranch reached.1 reached.2 hcontext hbefore.reached)
    fun next last hnext => ?_
  rw [hnext.2]
  refine (chain_continues later hnext.1.reached parent next.2).mono fun _ _ hlast => ?_
  exact ⟨hbefore.trans (hnext.1.trans hlast.1), hlast.2⟩

omit [Arith α] in
/-- A guard that has been registered for nothing, because no statement came under it. -/
theorem Matches.unregister {flags : Flags} (hmatches : Matches omission next (run.register flags).1)
    (hrun : run.Guarded) (hrenumbers : omission.renumbers = true) :
    Matches omission next run := by
  refine ⟨hmatches.bars, hmatches.env, ?_, fun hnumbers => ?_, hmatches.unresolved,
    hmatches.skipped⟩
  · have hwithin : ∀ signal ∈ run.signals, signal.guard.Within run.masks.length :=
      fun signal hsignal => (List.forall₂_same.1 hrun.signals signal hsignal).guard.within
    have hflipped : List.Forall₂ (flip (SameSignal omission next (run.register flags).1))
        run.signals next.signals := hmatches.signals.flip
    refine ((List.forall₂_and_left _ _).2 ⟨hwithin, hflipped⟩).flip.imp ?_
    rintro signal signal' ⟨hguard, hsame⟩
    refine ⟨hsame.kind, hsame.label, hsame.guard.within, hguard, ?_, hsame.guard.number⟩
    rw [← (grows_register run flags).mask hguard, hsame.guard.mask]
  · rw [hrenumbers] at hnumbers
    cases hnumbers

theorem lastPart_of_ne_nil {parent : Option Flags} {taken : Flags} {otherwise : List Statement}
    (hne : otherwise ≠ []) : lastPart parent run taken otherwise =
      block (some (run.register (active parent taken (List.replicate run.bars true))).2)
        (run.register (active parent taken (List.replicate run.bars true))).1 otherwise := by
  rw [lastPart, List.isEmpty_eq_false_iff.2 hne, if_neg Bool.false_ne_true]

/-- Last parts of a chain that differ. -/
theorem lastPart_edit_continues {parent : Option Flags} {taken : Flags}
    {first second : List Statement} (hrun : run.Guarded) (hfirst : first ≠ [])
    (hsecond : second ≠ [] ∨ omission.renumbers = true)
    (hblock : ∀ (entered : Run α) (guard : Guard), entered.context = run.context →
      entered.Guarded → entered.Settled (some guard) →
      Outcome.Alike (Continues omission entered entered) (block (some guard) entered first)
        (block (some guard) entered second)) :
    Outcome.Alike (Continues omission run run) (lastPart parent run taken first)
      (lastPart parent run taken second) := by
  let flags := active parent taken (List.replicate run.bars true)
  obtain ⟨hentered, hguard⟩ := hrun.register flags
  have halike := hblock (run.register flags).1 (run.register flags).2 rfl hentered.reached
    (.some hguard)
  rw [lastPart_of_ne_nil hfirst]
  rcases Classical.em (second = []) with rfl | hne
  · -- The statements that are left out were all that came under the guard.
    have hrenumbers := hsecond.resolve_left (fun hne => hne rfl)
    rw [block] at halike
    generalize block (some (run.register flags).2) (run.register flags).1 first = outcome at *
    cases halike with
    | ok hnext => exact .ok ⟨hnext.reached.unregister hrun hrenumbers,
        hentered.grows.trans hnext.grows, .refl run⟩
  · rw [lastPart_of_ne_nil hne]
    exact halike.mono fun _ _ => hentered.trans

/-- A statement between others that is another one in the second script. -/
theorem block_statement_continues {guard : Option Guard} {before after : List Statement}
    {first second : List Statement} (hrun : run.Guarded) (hguard : run.Settled guard)
    (hstatement : ∀ mid, block guard run before = .ok mid → mid.Guarded → mid.Settled guard →
      Outcome.Alike (Continues omission mid mid) (block guard mid first)
        (block guard mid second)) :
    Outcome.Alike (Continues omission run run) (block guard run (before ++ (first ++ after)))
      (block guard run (before ++ (second ++ after))) := by
  rw [block_append, block_append]
  refine Outcome.alike_bind_self fun mid hmid => ?_
  have hbefore := hrun.block hguard hmid
  have hsettled : mid.Settled guard := hbefore.sameGuards hguard
  rw [block_append, block_append]
  refine Outcome.alike_bind (hstatement mid hmid hbefore.reached hsettled) fun next last hnext => ?_
  have hguards := hnext.sameGuards hsettled.sameGuards
  exact (block_continues after hnext.reached hguards).mono fun _ _ hlast =>
    hbefore.trans (hnext.trans hlast)

theorem block_singleton (guard : Option Guard) (run : Run α) (content : Statement) :
    block guard run [content] = statement guard run content := by
  rw [block]
  cases statement guard run content <;> rfl

/-- Chains at the same place that differ in one branch. -/
theorem statement_branch_continues {guard : Option Guard} {line : Nat} {first second : Branch}
    {earlier later : List Branch} {otherwise : List Statement} (hrun : run.Guarded)
    (hbranch : ∀ (mid : Run α) (taken : Flags), mid.context = run.context → mid.Guarded →
      Outcome.Alike (ContinuesWith omission mid mid) (chain (guard.map run.mask) mid taken [first])
        (chain (guard.map run.mask) mid taken [second])) :
    Outcome.Alike (Continues omission run run)
      (statement guard run (.chain line (earlier ++ first :: later) otherwise))
      (statement guard run (.chain line (earlier ++ second :: later) otherwise)) := by
  rw [statement_chain, statement_chain]
  refine Outcome.alike_bind (chain_branch_continues hrun _ hbranch) fun next last hnext => ?_
  rw [hnext.2]
  refine (lastPart_continues hnext.1.reached fun hentered hguard => ?_).mono fun _ _ =>
    hnext.1.trans
  exact block_continues otherwise hentered (.some hguard)

end Run

/-! ## Filled places -/

variable [Arith α] {omission : Omission}

/-- Two fillings of a place that take all states that come there to matching states. -/
structure Place.Alike (omission : Omission) (context : Context α) (guard : Option Guard)
    (first second : List Statement) (place : Place) : Prop where
  filled : first ≠ []
  filled' : second ≠ [] ∨ omission.renumbers = true
  continues : ∀ (mid : Run α) (inner : Option Guard), mid.context = context →
    place.Under guard inner → mid.Guarded → mid.Settled inner →
    Outcome.Alike (Run.Continues omission mid mid) (Run.block inner mid first)
      (Run.block inner mid second)

/-- Fillings that are alike at a place are alike at it in the block around it. -/
theorem Place.Alike.inner {context : Context α} {first second : List Statement}
    {guard : Option Guard} {place inner : Place}
    (halike : place.Alike omission context guard first second) (hinner : place.IsInner)
    {entered : Guard} : inner.Alike omission context (some entered) first second := by
  refine ⟨halike.filled, halike.filled', fun mid g hmid hunder => halike.continues mid g hmid ?_⟩
  cases place with
  | here before after => exact hinner.elim
  | inBranch => exact hunder.isSome
  | inLast => exact hunder.isSome

/-- What is done at a place decides all that comes after it. -/
theorem Place.continues (place : Place) {context : Context α} {first second : List Statement}
    {guard : Option Guard} {run : Run α} (halike : place.Alike omission context guard first second)
    (hrun : run.Guarded) (hguard : run.Settled guard)
    (hcontext : ∀ mid, Run.block guard run place.before = .ok mid → mid.context = context) :
    Outcome.Alike (Run.Continues omission run run) (Run.block guard run (place.fill first))
      (Run.block guard run (place.fill second)) := by
  induction place generalizing guard run with
  | here before after =>
      refine Run.block_statement_continues hrun hguard fun mid hmid hself hsettled => ?_
      exact halike.continues mid guard (hcontext mid hmid) rfl hself hsettled
  | inBranch before line earlier head condition inner later otherwise after ih =>
      change Outcome.Alike _ (Run.block guard run (before ++ ([_] ++ after)))
        (Run.block guard run (before ++ ([_] ++ after)))
      refine Run.block_statement_continues hrun hguard fun mid hmid hself hsettled => ?_
      rw [Run.block_singleton, Run.block_singleton]
      refine Run.statement_branch_continues hself fun reached taken hreached hreachedSelf => ?_
      rw [Run.chain_cons, Run.chain_cons]
      refine Outcome.alike_bind_self fun tested htested => ?_
      have htestedSelf := hreachedSelf.condition htested
      obtain ⟨hentered, hinner⟩ :=
        htestedSelf.reached.register (Run.active (guard.map mid.mask) taken tested.2)
      have hsame : tested.1.context = context :=
        (Run.condition_keeps htested).1.context.trans (hreached.trans (hcontext mid hmid))
      have hbody := ih (halike.inner trivial) hentered.reached (.some hinner) fun last hlast =>
        (Run.block_keeps _ rfl hlast).1.context.trans hsame
      exact Outcome.alike_bind hbody fun next last hnext =>
        .ok ⟨htestedSelf.trans (hentered.trans hnext), rfl⟩
  | inLast before line branches inner after ih =>
      change Outcome.Alike _ (Run.block guard run (before ++ ([_] ++ after)))
        (Run.block guard run (before ++ ([_] ++ after)))
      refine Run.block_statement_continues hrun hguard fun mid hmid hself hsettled => ?_
      rw [Run.block_singleton, Run.block_singleton, Run.statement_chain, Run.statement_chain]
      refine Outcome.alike_bind_self fun reached hreached => ?_
      have hreachedSelf := hself.chain hreached
      have hsame : reached.1.context = context :=
        (Run.chain_keeps branches hreached).1.context.trans (hcontext mid hmid)
      refine (Run.lastPart_edit_continues hreachedSelf.reached (inner.fill_ne_nil halike.filled)
        (halike.filled'.imp_left fun hne => inner.fill_ne_nil hne)
        fun entered g hentered hguarded hg => ?_).mono fun _ _ => hreachedSelf.trans
      refine ih (halike.inner trivial) hguarded hg fun last hlast => ?_
      exact (Run.block_keeps _ rfl hlast).1.context.trans (hentered.trans hsame)

end Backtest.Script
