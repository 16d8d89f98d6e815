import Backtest.Proofs.Outcome
import Backtest.Proofs.Script.Length

/-!
# Runs that leave something out

Two runs match if they have the same names and the same signals, each as its kind, its label and the
bars at which its guard holds, and if their reports are the same but for one line (`Run.Matches`).
Guards may have other numbers, because a run may have registered a series that the other one has
not.

Whatever matching runs go on with, they match afterwards (`block_continues`): no statement looks at
a report, and a guard is only ever asked for its series.  Series are added behind those that are
there, so that the guards of earlier signals keep theirs (`Run.Grows`).
-/

namespace Backtest.Script

open Text Backtest.Expr

variable {α : Type}

/-! ## Reports -/

/-- A report, and the same report with one entry left out, or none. -/
def Omits (omitted : Option Nat) (report rest : List Nat) : Prop :=
  ∃ front back, report = front ++ (omitted.toList ++ back) ∧ rest = front ++ back

theorem Omits.append {omitted : Option Nat} {report rest : List Nat}
    (homits : Omits omitted report rest) (more : List Nat) :
    Omits omitted (report ++ more) (rest ++ more) := by
  obtain ⟨front, back, rfl, rfl⟩ := homits
  refine ⟨front, back ++ more, ?_, List.append_assoc ..⟩
  rw [List.append_assoc, List.append_assoc]

theorem omits_none_iff {report rest : List Nat} : Omits none report rest ↔ rest = report := by
  constructor
  · rintro ⟨front, back, rfl, rfl⟩
    rfl
  · rintro rfl
    exact ⟨[], rest, rfl, rfl⟩

theorem omits_append_singleton (line : Nat) (rest : List Nat) :
    Omits (some line) (rest ++ [line]) rest :=
  ⟨rest, [], rfl, (List.append_nil rest).symm⟩

/-- What the second of two runs leaves out of its reports. -/
structure Omission where
  unresolved : Option Nat
  skipped : Option Nat
  /-- Guards may have other numbers. -/
  renumbers : Bool

/-- Nothing is left out, and guards have the same numbers. -/
def Omission.nothing : Omission := ⟨none, none, false⟩

namespace Run

/-! ## Guards -/

variable {omission : Omission} {run other next last : Run α} {guard guard' : Guard}

/-- Guards of two runs that stand for the same series. -/
structure SameGuard (omission : Omission) (run other : Run α) (guard guard' : Guard) : Prop where
  within : guard.Within run.masks.length
  within' : guard'.Within other.masks.length
  mask : other.mask guard' = run.mask guard
  number : omission.renumbers = false → guard' = guard

theorem SameGuard.grow (hguard : SameGuard omission run other guard guard')
    (hrun : run.Grows next) (hother : other.Grows last) :
    SameGuard omission next last guard guard' := by
  refine ⟨hrun.within hguard.within, hother.within hguard.within', ?_, hguard.number⟩
  rw [hother.mask hguard.within', hguard.mask, hrun.mask hguard.within]

/-! ## Matching runs -/

/-- Signals of two runs that are given at the same bars. -/
structure SameSignal (omission : Omission) (run other : Run α) (signal signal' : Signal) :
    Prop where
  kind : signal'.kind = signal.kind
  label : signal'.label = signal.label
  guard : SameGuard omission run other signal.guard signal'.guard

/-- Runs in the same state, but for what the second one leaves out. -/
structure Matches (omission : Omission) (run other : Run α) : Prop where
  bars : other.bars = run.bars
  env : other.env = run.env
  signals : List.Forall₂ (SameSignal omission run other) run.signals other.signals
  masks : omission.renumbers = false → other.masks = run.masks
  unresolved : Omits omission.unresolved run.unresolved other.unresolved
  skipped : Omits omission.skipped run.skipped other.skipped

/-- Matching runs that have come out of two others. -/
structure Continues (omission : Omission) (run other next last : Run α) : Prop where
  reached : Matches omission next last
  grows : run.Grows next
  grows' : other.Grows last

/-- The same, with one and the same further result. -/
def ContinuesWith {β : Type} (omission : Omission) (run other : Run α) (first second : Run α × β) :
    Prop :=
  Continues omission run other first.1 second.1 ∧ second.2 = first.2

theorem Matches.context (hmatches : Matches omission run other) : other.context = run.context := by
  rw [Run.context, Run.context, hmatches.env, hmatches.bars]

theorem Matches.refl (hmatches : Matches omission run other) :
    Continues omission run other run other :=
  ⟨hmatches, .refl run, .refl other⟩

theorem Continues.trans {earlier : Omission} {next' last' : Run α}
    (hfirst : Continues earlier run other next last)
    (hsecond : Continues omission next last next' last') :
    Continues omission run other next' last' :=
  ⟨hsecond.reached, hfirst.grows.trans hsecond.grows, hfirst.grows'.trans hsecond.grows'⟩

theorem Continues.sameGuard (hcontinues : Continues omission run other next last)
    (hguard : SameGuard omission run other guard guard') :
    SameGuard omission next last guard guard' :=
  hguard.grow hcontinues.grows hcontinues.grows'

theorem Matches.signals_grow (hmatches : Matches omission run other) (hrun : run.Grows next)
    (hother : other.Grows last) :
    List.Forall₂ (SameSignal omission next last) run.signals other.signals :=
  hmatches.signals.imp fun _ _ hsame => ⟨hsame.kind, hsame.label, hsame.guard.grow hrun hother⟩

theorem Matches.sameGuard_always (hmatches : Matches omission run other) :
    SameGuard omission run other .always .always :=
  ⟨trivial, trivial, congrArg (List.replicate · true) hmatches.bars, fun _ => rfl⟩

/-! ## One step -/

theorem Matches.reportUnresolved (hmatches : Matches omission run other) (line : Nat) :
    Continues omission run other (run.reportUnresolved line) (other.reportUnresolved line) := by
  have hrun : run.Grows (run.reportUnresolved line) := ⟨rfl, List.prefix_rfl⟩
  have hother : other.Grows (other.reportUnresolved line) := ⟨rfl, List.prefix_rfl⟩
  exact ⟨⟨hmatches.bars, hmatches.env, hmatches.signals_grow hrun hother, hmatches.masks,
    hmatches.unresolved.append [line], hmatches.skipped⟩, hrun, hother⟩

theorem Matches.reportSkipped (hmatches : Matches omission run other) (line : Nat) :
    Continues omission run other (run.reportSkipped line) (other.reportSkipped line) := by
  have hrun : run.Grows (run.reportSkipped line) := ⟨rfl, List.prefix_rfl⟩
  have hother : other.Grows (other.reportSkipped line) := ⟨rfl, List.prefix_rfl⟩
  exact ⟨⟨hmatches.bars, hmatches.env, hmatches.signals_grow hrun hother, hmatches.masks,
    hmatches.unresolved, hmatches.skipped.append [line]⟩, hrun, hother⟩

theorem Matches.emit (hmatches : Matches omission run other)
    (hguard : SameGuard omission run other guard guard') (kind : SignalKind)
    (label : Option String) :
    Continues omission run other (run.emit ⟨kind, guard, label⟩)
      (other.emit ⟨kind, guard', label⟩) := by
  have hrun : run.Grows (run.emit ⟨kind, guard, label⟩) := ⟨rfl, List.prefix_rfl⟩
  have hother : other.Grows (other.emit ⟨kind, guard', label⟩) := ⟨rfl, List.prefix_rfl⟩
  refine ⟨⟨hmatches.bars, hmatches.env, ?_, hmatches.masks, hmatches.unresolved,
    hmatches.skipped⟩, hrun, hother⟩
  exact List.rel_append (hmatches.signals_grow hrun hother)
    (.cons ⟨rfl, rfl, hguard.grow hrun hother⟩ .nil)

theorem Matches.bind (hmatches : Matches omission run other) (env : Environment α) :
    Continues omission run other { run with env := env } { other with env := env } := by
  have hrun : run.Grows { run with env := env } := ⟨rfl, List.prefix_rfl⟩
  have hother : other.Grows { other with env := env } := ⟨rfl, List.prefix_rfl⟩
  exact ⟨⟨hmatches.bars, rfl, hmatches.signals_grow hrun hother, hmatches.masks,
    hmatches.unresolved, hmatches.skipped⟩, hrun, hother⟩

theorem Matches.register (hmatches : Matches omission run other) (flags : Flags) :
    Continues omission run other (run.register flags).1 (other.register flags).1 ∧
      SameGuard omission (run.register flags).1 (other.register flags).1
        (run.register flags).2 (other.register flags).2 := by
  have hrun := grows_register run flags
  have hother := grows_register other flags
  refine ⟨⟨⟨hmatches.bars, hmatches.env, hmatches.signals_grow hrun hother, fun hnumbers => ?_,
    hmatches.unresolved, hmatches.skipped⟩, hrun, hother⟩, ?_⟩
  · exact congrArg (· ++ [flags]) (hmatches.masks hnumbers)
  · refine ⟨register_within run flags, register_within other flags, ?_, fun hnumbers => ?_⟩
    · rw [mask_register, mask_register]
    · exact congrArg (fun masks : List Flags => Guard.branch masks.length) (hmatches.masks hnumbers)

variable [Arith α]

theorem assign_continues (hmatches : Matches omission run other) (line : Nat) (name : String)
    (expression : Chars) :
    Outcome.Alike (Continues omission run other) (run.assign line name expression)
      (other.assign line name expression) := by
  have hsame : evaluate? run.context expression = evaluate? other.context expression := by
    rw [hmatches.context]
  refine Outcome.alike_bind_eq hsame fun value => ?_
  cases value with
  | none => exact .ok (hmatches.reportUnresolved line)
  | some value =>
      dsimp only
      rw [hmatches.env]
      exact .ok (hmatches.bind (run.env.bind name value))

theorem destructure_continues (hmatches : Matches omission run other) (line : Nat)
    (names : List String) (triple : Triple) (arguments : List Chars) :
    Outcome.Alike (Continues omission run other) (run.destructure line names triple arguments)
      (other.destructure line names triple arguments) := by
  have hsame : evaluateTriple? run.context triple arguments =
      evaluateTriple? other.context triple arguments := by rw [hmatches.context]
  refine Outcome.alike_bind_eq hsame fun results => ?_
  cases results with
  | none => exact .ok (hmatches.reportUnresolved line)
  | some results =>
      obtain ⟨first, second, third⟩ := results
      dsimp only
      rw [hmatches.env]
      exact .ok (hmatches.bind _)

theorem condition_continues (hmatches : Matches omission run other) (line : Nat) (text : Chars) :
    Outcome.Alike (ContinuesWith omission run other) (run.condition line text)
      (other.condition line text) := by
  have hsame : evaluate? run.context text = evaluate? other.context text := by
    rw [hmatches.context]
  refine Outcome.alike_bind_eq hsame fun value => ?_
  rw [hmatches.bars]
  cases value.bind (·.truth run.bars) with
  | none => exact .ok ⟨hmatches.reportUnresolved line, rfl⟩
  | some flags => exact .ok ⟨hmatches.refl, rfl⟩

/-! ## Whole statements -/

/-- The statements under an `else`, at the bars where no condition of the chain holds. -/
def lastPart (parent : Option Flags) (run : Run α) (taken : Flags) (otherwise : List Statement) :
    Outcome (Run α) :=
  if otherwise.isEmpty then .ok run
  else
    let entered := run.register (active parent taken (List.replicate run.bars true))
    block (some entered.2) entered.1 otherwise

theorem statement_chain (guard : Option Guard) (run : Run α) (line : Nat) (branches : List Branch)
    (otherwise : List Statement) :
    statement guard run (.chain line branches otherwise) =
      chain (guard.map run.mask) run (List.replicate run.bars false) branches >>= fun reached =>
        lastPart (guard.map run.mask) reached.1 reached.2 otherwise := by
  rw [statement]
  rfl

/-- A branch of a chain: its condition, its body under its own guard, and the other branches. -/
theorem chain_cons (parent : Option Flags) (run : Run α) (taken : Flags) (line : Nat) (text : Chars)
    (body : List Statement) (rest : List Branch) :
    chain parent run taken (.mk line text body :: rest) =
      run.condition line text >>= fun tested =>
        let entered := tested.1.register (active parent taken tested.2)
        block (some entered.2) entered.1 body >>= fun inner =>
          chain parent inner (List.zipWith (· || ·) taken tested.2) rest := by
  rw [chain]

/-- Guards of matching runs, or none in both. -/
abbrev SameGuards (omission : Omission) (run other : Run α) :
    Option Guard → Option Guard → Prop := Option.Rel (SameGuard omission run other)

omit [Arith α] in
theorem Continues.sameGuards {guard guard' : Option Guard}
    (hcontinues : Continues omission run other next last)
    (hguards : SameGuards omission run other guard guard') :
    SameGuards omission next last guard guard' := by
  cases hguards with
  | some hguard => exact .some (hcontinues.sameGuard hguard)
  | none => exact .none

omit [Arith α] in
theorem Matches.parent_eq {guard guard' : Option Guard}
    (hguards : SameGuards omission run other guard guard') :
    guard'.map other.mask = guard.map run.mask := by
  cases hguards with
  | some hguard => exact congrArg some hguard.mask
  | none => rfl

/-- The last part of a chain keeps a match if its statements do. -/
theorem lastPart_continues {parent : Option Flags} {taken : Flags} {otherwise : List Statement}
    (hmatches : Matches omission run other)
    (hblock : ∀ {run other : Run α} {guard guard' : Guard}, Matches omission run other →
      SameGuard omission run other guard guard' →
      Outcome.Alike (Continues omission run other) (block (some guard) run otherwise)
        (block (some guard') other otherwise)) :
    Outcome.Alike (Continues omission run other) (lastPart parent run taken otherwise)
      (lastPart parent other taken otherwise) := by
  rw [lastPart, lastPart, hmatches.bars]
  split
  · exact .ok hmatches.refl
  · obtain ⟨hentered, hguard⟩ :=
      hmatches.register (active parent taken (List.replicate run.bars true))
    exact (hblock hentered.reached hguard).mono fun _ _ => hentered.trans

mutual

theorem statement_continues (content : Statement) {run other : Run α}
    {guard guard' : Option Guard} (hmatches : Matches omission run other)
    (hguards : SameGuards omission run other guard guard') :
    Outcome.Alike (Continues omission run other) (statement guard run content)
      (statement guard' other content) := by
  cases content with
  | signal line kind label =>
      rw [statement, statement]
      cases hguards with
      | some hguard => exact .ok (hmatches.emit hguard kind label)
      | none => exact .ok (hmatches.emit hmatches.sameGuard_always kind label)
  | assign line name expression =>
      rw [statement, statement]
      cases hguards with
      | some hguard => exact .ok (hmatches.reportSkipped line)
      | none => exact assign_continues hmatches line name expression
  | destructure line names triple arguments =>
      rw [statement, statement]
      cases hguards with
      | some hguard => exact .ok (hmatches.reportSkipped line)
      | none => exact destructure_continues hmatches line names triple arguments
  | chain line branches otherwise =>
      rw [statement_chain, statement_chain, Matches.parent_eq hguards, hmatches.bars]
      refine Outcome.alike_bind (chain_continues branches hmatches _ _)
        fun first second hfirst => ?_
      obtain ⟨after, taken⟩ := first
      obtain ⟨reached, covered⟩ := second
      obtain ⟨hafter, rfl⟩ := hfirst
      refine (lastPart_continues hafter.reached fun hentered hguard => ?_).mono fun _ _ =>
        hafter.trans
      exact block_continues otherwise hentered (.some hguard)

/-- What matching runs go on with in the same way leaves them matching. -/
theorem block_continues (statements : List Statement) {run other : Run α}
    {guard guard' : Option Guard} (hmatches : Matches omission run other)
    (hguards : SameGuards omission run other guard guard') :
    Outcome.Alike (Continues omission run other) (block guard run statements)
      (block guard' other statements) := by
  cases statements with
  | nil => exact .ok hmatches.refl
  | cons first rest =>
      rw [block, block]
      refine Outcome.alike_bind (statement_continues first hmatches hguards)
        fun next last hfirst => ?_
      exact (block_continues rest hfirst.reached (hfirst.sameGuards hguards)).mono fun _ _ =>
        hfirst.trans

theorem chain_continues (branches : List Branch) {run other : Run α}
    (hmatches : Matches omission run other) (parent : Option Flags) (taken : Flags) :
    Outcome.Alike (ContinuesWith omission run other) (chain parent run taken branches)
      (chain parent other taken branches) := by
  cases branches with
  | nil => exact .ok ⟨hmatches.refl, rfl⟩
  | cons first others =>
      obtain ⟨line, text, body⟩ := first
      rw [chain_cons, chain_cons]
      refine Outcome.alike_bind (condition_continues hmatches line text)
        fun first second htested => ?_
      obtain ⟨tested, holds⟩ := first
      obtain ⟨reached, held⟩ := second
      obtain ⟨htested, rfl⟩ := htested
      obtain ⟨hentered, hguard⟩ := htested.reached.register (active parent taken held)
      refine Outcome.alike_bind (block_continues body hentered.reached (.some hguard))
        fun inner inner' hinner => ?_
      refine (chain_continues others hinner.reached parent _).mono fun _ _ hlast => ?_
      exact ⟨htested.trans (hentered.trans (hinner.trans hlast.1)), hlast.2⟩

end

end Run

end Backtest.Script
