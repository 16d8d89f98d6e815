import Backtest.Proofs.Expr.Length
import Backtest.Script.Run

/-!
# The lengths of the series of a run

A run over a table whose columns have one entry for each bar keeps that property: every name stands
for a value that covers the bars, every branch has a mask of full length, and every signal stands
under a guard that has a mask.  `Run.Aligned` is this invariant, and `Run.Leads` says what every
operation of a run does with it: it keeps it, and it only ever adds masks behind those that are
there, so that the mask of a guard is settled once it has one (`Run.Grows`).
-/

namespace Backtest

variable {α : Type}

/-- Every column of a table has one entry for each bar. -/
structure Prices.Aligned (prices : Prices α) : Prop where
  timestamp : prices.timestamp.length = prices.length
  opening : prices.opening.length = prices.length
  high : prices.high.length = prices.length
  low : prices.low.length = prices.length
  volume : prices.volume.length = prices.length

/-- The columns of a list of bars are aligned. -/
theorem Prices.aligned_ofBars {bars : List (Bar α)} {prices : Prices α}
    (hprices : ofBars bars = .ok prices) : prices.Aligned := by
  rw [ofBars] at hprices
  split at hprices
  · injection hprices with hprices
    rw [← hprices]
    constructor <;> simp [Prices.length]
  · exact nomatch hprices

variable [Arith α]

namespace Environment

theorem ofPrices_covers {prices : Prices α} (haligned : prices.Aligned) :
    (ofPrices prices).Covers prices.length := by
  have hclose : prices.close.length = prices.length := rfl
  have hhighLow := Series.length_zipWith_of (f := (· + ·)) haligned.high haligned.low
  apply forall_value?_of_mem
  intro entry hentry value hvalue
  simp only [ofPrices, List.mem_cons, List.not_mem_nil, or_false] at hentry
  rcases hentry with rfl | rfl | rfl | rfl | rfl | rfl | rfl | rfl | rfl | rfl
  all_goals
    injection hvalue with hvalue
    rw [← hvalue]
  · exact haligned.opening
  · exact haligned.high
  · exact haligned.low
  · exact hclose
  · exact haligned.volume
  · exact (List.length_map _).trans hhighLow
  · exact (List.length_map _).trans (Series.length_zipWith_of hhighLow hclose)
  · exact (List.length_map _).trans (Series.length_zipWith_of (Series.length_zipWith_of
      (Series.length_zipWith_of haligned.opening haligned.high) haligned.low) hclose)
  · trivial
  · trivial

theorem ofScalar_covers {bars : Nat} {param : Scalar α} :
    Outcome.Gives (Value.Covers bars) (Value.ofScalar param) := by
  cases param with
  | int n =>
      apply Outcome.gives_bind
      intro x _
      exact Outcome.gives_some trivial
  | missing => exact Outcome.gives_none _
  | _ => exact Outcome.gives_some trivial

theorem withParams_covers {bars : Nat} {env next : Environment α} {params : Params α}
    (henv : env.Covers bars) (hnext : withParams env params = .ok next) : next.Covers bars := by
  induction params generalizing env with
  | nil =>
      injection hnext with hnext
      rw [← hnext]
      exact henv
  | cons param rest ih =>
      obtain ⟨name, param⟩ := param
      obtain ⟨value, hvalue, hnext⟩ := Outcome.bind_eq_ok.1 hnext
      apply ih (henv.put name _) hnext
      intro x hx
      exact ofScalar_covers x (hx ▸ hvalue)

theorem start_covers {prices : Prices α} {params : Params α} {env : Environment α}
    (haligned : prices.Aligned) (henv : start prices params = .ok env) :
    env.Covers prices.length :=
  withParams_covers (ofPrices_covers haligned) henv

end Environment

namespace Script

open Text Backtest.Expr

/-- A guard that the first branches of a run can be under. -/
def Guard.Within (count : Nat) : Guard → Prop
  | .always => True
  | .branch number => number < count

theorem Guard.Within.mono {first second : Nat} {guard : Guard} (hguard : guard.Within first)
    (hle : first ≤ second) : guard.Within second := by
  cases guard with
  | always => trivial
  | branch number => exact Nat.lt_of_lt_of_le hguard hle

namespace Run

/-- All series of a run have one entry for each bar, and all guards have a series. -/
structure Aligned (run : Run α) : Prop where
  env : run.env.Covers run.bars
  masks : ∀ flags ∈ run.masks, flags.length = run.bars
  guards : ∀ signal ∈ run.signals, signal.guard.Within run.masks.length

/-- A later state of a run: the masks have only become more. -/
structure Grows (run next : Run α) : Prop where
  bars : next.bars = run.bars
  masks : run.masks <+: next.masks

/-- An aligned run that has come out of another one: the masks have only become more. -/
structure Leads (run next : Run α) : Prop where
  aligned : next.Aligned
  bars : next.bars = run.bars
  masks : run.masks <+: next.masks

variable {run next last : Run α}

omit [Arith α] in
theorem Grows.refl (run : Run α) : run.Grows run := ⟨rfl, List.prefix_rfl⟩

omit [Arith α] in
theorem Grows.trans (hfirst : run.Grows next) (hsecond : next.Grows last) : run.Grows last :=
  ⟨hsecond.bars.trans hfirst.bars, hfirst.masks.trans hsecond.masks⟩

omit [Arith α] in
theorem grows_register (run : Run α) (flags : Flags) : run.Grows (run.register flags).1 :=
  ⟨rfl, List.prefix_append ..⟩

omit [Arith α] in
theorem Grows.within (hgrows : run.Grows next) {guard : Guard}
    (hguard : guard.Within run.masks.length) : guard.Within next.masks.length :=
  hguard.mono hgrows.masks.length_le

omit [Arith α] in
/-- The mask of a guard does not change once the guard has one. -/
theorem Grows.mask (hgrows : run.Grows next) {guard : Guard}
    (hguard : guard.Within run.masks.length) : next.mask guard = run.mask guard := by
  cases guard with
  | always => exact congrArg (List.replicate · true) hgrows.bars
  | branch number =>
      obtain ⟨more, hmore⟩ := hgrows.masks
      change next.masks[number]?.getD [] = run.masks[number]?.getD []
      rw [← hmore, List.getElem?_append_left hguard]

omit [Arith α] in
theorem Aligned.context (haligned : run.Aligned) : run.context.Covered := haligned.env

omit [Arith α] in
theorem Aligned.leads (haligned : run.Aligned) : run.Leads run :=
  ⟨haligned, rfl, List.prefix_rfl⟩

omit [Arith α] in
theorem Leads.trans (hfirst : run.Leads next) (hsecond : next.Leads last) : run.Leads last :=
  ⟨hsecond.aligned, hsecond.bars.trans hfirst.bars, hfirst.masks.trans hsecond.masks⟩

omit [Arith α] in
theorem Leads.grows (hleads : run.Leads next) : run.Grows next := ⟨hleads.bars, hleads.masks⟩

omit [Arith α] in
theorem Leads.within (hleads : run.Leads next) {guard : Guard}
    (hguard : guard.Within run.masks.length) : guard.Within next.masks.length :=
  hleads.grows.within hguard

omit [Arith α] in
theorem Leads.mask (hleads : run.Leads next) {guard : Guard}
    (hguard : guard.Within run.masks.length) : next.mask guard = run.mask guard :=
  hleads.grows.mask hguard

omit [Arith α] in
theorem Aligned.length_mask (haligned : run.Aligned) {guard : Guard}
    (hguard : guard.Within run.masks.length) : (run.mask guard).length = run.bars := by
  cases guard with
  | always => exact List.length_replicate
  | branch number =>
      change (run.masks[number]?.getD []).length = run.bars
      rw [List.getElem?_eq_getElem hguard]
      exact haligned.masks _ (List.getElem_mem hguard)

theorem start_aligned {prices : Prices α} {params : Params α} (hprices : prices.Aligned)
    (hrun : start prices params = .ok run) : run.Aligned := by
  obtain ⟨env, henv, hrun⟩ := Outcome.bind_eq_ok.1 hrun
  injection hrun with hrun
  rw [← hrun]
  constructor
  · exact Environment.start_covers hprices henv
  · exact fun flags hflags => nomatch hflags
  · exact fun signal hsignal => nomatch hsignal

omit [Arith α] in
theorem Aligned.reportUnresolved (haligned : run.Aligned) (line : Nat) :
    run.Leads (run.reportUnresolved line) :=
  ⟨⟨haligned.env, haligned.masks, haligned.guards⟩, rfl, List.prefix_rfl⟩

omit [Arith α] in
theorem Aligned.reportSkipped (haligned : run.Aligned) (line : Nat) :
    run.Leads (run.reportSkipped line) :=
  ⟨⟨haligned.env, haligned.masks, haligned.guards⟩, rfl, List.prefix_rfl⟩

omit [Arith α] in
theorem Aligned.emit (haligned : run.Aligned) {signal : Signal}
    (hsignal : signal.guard.Within run.masks.length) : run.Leads (run.emit signal) := by
  refine ⟨⟨haligned.env, haligned.masks, ?_⟩, rfl, List.prefix_rfl⟩
  intro other hother
  rcases List.mem_append.1 hother with hother | hother
  · exact haligned.guards other hother
  · rw [List.mem_singleton.1 hother]
    exact hsignal

omit [Arith α] in
theorem Aligned.register (haligned : run.Aligned) {flags : Flags}
    (hflags : flags.length = run.bars) : run.Leads (run.register flags).1 := by
  have hgrows : run.masks <+: (run.register flags).1.masks := List.prefix_append ..
  refine ⟨⟨haligned.env, ?_, ?_⟩, rfl, hgrows⟩
  · intro mask hmask
    rcases List.mem_append.1 hmask with hmask | hmask
    · exact haligned.masks mask hmask
    · rw [List.mem_singleton.1 hmask]
      exact hflags
  · intro signal hsignal
    exact (haligned.guards signal hsignal).mono hgrows.length_le

omit [Arith α] in
/-- The guard of a registered series is in use, and its mask is that series. -/
theorem register_within (run : Run α) (flags : Flags) :
    (run.register flags).2.Within (run.register flags).1.masks.length := by
  change run.masks.length < (run.masks ++ [flags]).length
  rw [List.length_append, List.length_singleton]
  exact Nat.lt_succ_self _

omit [Arith α] in
theorem within_register (run : Run α) (flags : Flags) (guard : Guard)
    (hguard : some (run.register flags).2 = some guard) :
    guard.Within (run.register flags).1.masks.length :=
  Option.some.inj hguard ▸ register_within run flags

omit [Arith α] in
/-- A series of full length can be registered in any later state. -/
theorem Leads.register (hleads : run.Leads next) {flags : Flags}
    (hflags : flags.length = run.bars) : run.Leads (next.register flags).1 :=
  hleads.trans (hleads.aligned.register (hflags.trans hleads.bars.symm))

omit [Arith α] in
/-- The mask that a statement stands under has full length. -/
theorem Aligned.length_parent (haligned : run.Aligned) {guard : Option Guard}
    (hguard : ∀ g, guard = some g → g.Within run.masks.length) (flags : Flags)
    (hflags : guard.map run.mask = some flags) : flags.length = run.bars := by
  obtain ⟨g, hg, hmask⟩ := Option.map_eq_some_iff.1 hflags
  rw [← hmask]
  exact haligned.length_mask (hguard g hg)

omit [Arith α] in
@[simp]
theorem mask_register (run : Run α) (flags : Flags) :
    (run.register flags).1.mask (run.register flags).2 = flags := by
  change (run.masks ++ [flags])[run.masks.length]?.getD [] = flags
  rw [List.getElem?_concat_length]
  rfl

theorem assign_leads {line : Nat} {name : String} {expression : Chars} (haligned : run.Aligned)
    (hnext : run.assign line name expression = .ok next) : run.Leads next := by
  obtain ⟨value, hvalue, hnext⟩ := Outcome.bind_eq_ok.1 hnext
  cases value with
  | none =>
      injection hnext with hnext
      rw [← hnext]
      exact haligned.reportUnresolved line
  | some value =>
      injection hnext with hnext
      rw [← hnext]
      have hcovers : value.Covers run.bars :=
        evaluate?_covers haligned.context expression value hvalue
      exact ⟨⟨haligned.env.bind name hcovers, haligned.masks, haligned.guards⟩, rfl,
        List.prefix_rfl⟩

omit [Arith α] in
theorem bindAll_covers {bars : Nat} {env : Environment α} {bound : List (String × Series α)}
    (henv : env.Covers bars) (hbound : ∀ entry ∈ bound, entry.2.length = bars) :
    Environment.Covers bars
      (bound.foldl (fun env entry => env.bind entry.1 (.series entry.2)) env) := by
  induction bound generalizing env with
  | nil => exact henv
  | cons entry rest ih =>
      apply ih
      · exact henv.bind entry.1 (hbound entry List.mem_cons_self)
      · exact fun other hother => hbound other (List.mem_cons_of_mem _ hother)

theorem destructure_leads {line : Nat} {names : List String} {triple : Triple}
    {arguments : List Chars} (haligned : run.Aligned)
    (hnext : run.destructure line names triple arguments = .ok next) : run.Leads next := by
  obtain ⟨results, hresults, hnext⟩ := Outcome.bind_eq_ok.1 hnext
  cases results with
  | none =>
      injection hnext with hnext
      rw [← hnext]
      exact haligned.reportUnresolved line
  | some results =>
      obtain ⟨first, second, third⟩ := results
      injection hnext with hnext
      rw [← hnext]
      obtain ⟨hfirst, hsecond, hthird⟩ :=
        evaluateTriple?_covers haligned.context triple arguments _ hresults
      refine ⟨⟨bindAll_covers haligned.env ?_, haligned.masks, haligned.guards⟩, rfl,
        List.prefix_rfl⟩
      intro entry hentry
      have hmem := (List.of_mem_zip hentry).2
      simp only [List.mem_cons, List.not_mem_nil, or_false] at hmem
      rcases hmem with hmem | hmem | hmem
      · rw [hmem]; exact hfirst
      · rw [hmem]; exact hsecond
      · rw [hmem]; exact hthird

/-- A condition leaves the names and the masks alone, and its series has full length. -/
theorem condition_leads {line : Nat} {text : Chars} {flags : Flags} (haligned : run.Aligned)
    (hnext : run.condition line text = .ok (next, flags)) :
    run.Leads next ∧ flags.length = run.bars := by
  obtain ⟨value, hvalue, hnext⟩ := Outcome.bind_eq_ok.1 hnext
  split at hnext
  · next holds hholds =>
      obtain ⟨result, hresult, htruth⟩ := Option.bind_eq_some_iff.1 hholds
      injection hnext with hnext
      injection hnext with hrun hflags
      rw [← hrun, ← hflags]
      have hcovers : result.Covers run.bars :=
        evaluate?_covers haligned.context text result (hresult ▸ hvalue)
      exact ⟨haligned.leads, hcovers.length_truth htruth⟩
  · injection hnext with hnext
    injection hnext with hrun hflags
    rw [← hrun, ← hflags]
    exact ⟨haligned.reportUnresolved line, List.length_replicate⟩

theorem length_active {bars : Nat} {parent : Option Flags} {taken condition : Flags}
    (hparent : ∀ flags, parent = some flags → flags.length = bars) (htaken : taken.length = bars)
    (hcondition : condition.length = bars) : (active parent taken condition).length = bars := by
  cases parent with
  | none => exact Series.length_zipWith_of hcondition htaken
  | some flags =>
      exact Series.length_zipWith_of (Series.length_zipWith_of hcondition htaken)
        (hparent flags rfl)

/-! ## Whole statements -/

/-- What a chain of branches does: its condition, its body under the guard of the branch, and the
branches after it. -/
theorem chain_cons_eq_ok {parent : Option Flags} {taken : Flags} {line : Nat} {text : Chars}
    {body : List Statement} {rest : List Branch} {result : Run α × Flags}
    (hresult : chain parent run taken (.mk line text body :: rest) = .ok result) :
    ∃ (tested : Run α) (holds : Flags) (inner : Run α),
      run.condition line text = .ok (tested, holds) ∧
      block (some (tested.register (active parent taken holds)).2)
        (tested.register (active parent taken holds)).1 body = .ok inner ∧
      chain parent inner (List.zipWith (· || ·) taken holds) rest = .ok result := by
  rw [chain] at hresult
  obtain ⟨⟨tested, holds⟩, hcondition, hresult⟩ := Outcome.bind_eq_ok.1 hresult
  obtain ⟨inner, hbody, hrest⟩ := Outcome.bind_eq_ok.1 hresult
  exact ⟨tested, holds, inner, hcondition, hbody, hrest⟩

/-- What a whole `if` does: its branches, and then its last part where none of them is taken. -/
theorem statement_chain_eq_ok {guard : Option Guard} {line : Nat} {branches : List Branch}
    {otherwise : List Statement}
    (hnext : statement guard run (.chain line branches otherwise) = .ok next) :
    ∃ (after : Run α) (taken : Flags),
      chain (guard.map run.mask) run (List.replicate run.bars false) branches = .ok (after, taken) ∧
      ((otherwise = [] ∧ next = after) ∨
        let flags := active (guard.map run.mask) taken (List.replicate after.bars true)
        block (some (after.register flags).2) (after.register flags).1 otherwise = .ok next) := by
  rw [statement] at hnext
  obtain ⟨⟨after, taken⟩, hchain, hnext⟩ := Outcome.bind_eq_ok.1 hnext
  refine ⟨after, taken, hchain, ?_⟩
  cases otherwise with
  | nil => injection hnext with hnext; exact .inl ⟨rfl, hnext.symm⟩
  | cons first rest => exact .inr hnext

mutual

theorem statement_leads (content : Statement) {guard : Option Guard} {run next : Run α}
    (haligned : run.Aligned) (hguard : ∀ g, guard = some g → g.Within run.masks.length)
    (hnext : statement guard run content = .ok next) : run.Leads next := by
  cases content with
  | signal line kind label =>
      rw [statement] at hnext
      injection hnext with hnext
      rw [← hnext]
      apply haligned.emit
      cases guard with
      | none => trivial
      | some g => exact hguard g rfl
  | assign line name expression =>
      rw [statement] at hnext
      split at hnext
      · injection hnext with hnext
        rw [← hnext]
        exact haligned.reportSkipped line
      · exact assign_leads haligned hnext
  | destructure line names triple arguments =>
      rw [statement] at hnext
      split at hnext
      · injection hnext with hnext
        rw [← hnext]
        exact haligned.reportSkipped line
      · exact destructure_leads haligned hnext
  | chain line branches otherwise =>
      obtain ⟨after, taken, hchain, hrest⟩ := statement_chain_eq_ok hnext
      have hparent := haligned.length_parent hguard
      obtain ⟨hleads, htaken⟩ := chain_leads branches haligned hparent List.length_replicate hchain
      rcases hrest with ⟨_, hafter⟩ | hblock
      · rw [hafter]
        exact hleads
      · have hall : (List.replicate after.bars true).length = run.bars := by
          rw [List.length_replicate, hleads.bars]
        have hregister := hleads.register (length_active hparent htaken hall)
        exact hregister.trans
          (block_leads otherwise hregister.aligned (within_register _ _) hblock)

theorem block_leads (statements : List Statement) {guard : Option Guard} {run next : Run α}
    (haligned : run.Aligned) (hguard : ∀ g, guard = some g → g.Within run.masks.length)
    (hnext : block guard run statements = .ok next) : run.Leads next := by
  cases statements with
  | nil =>
      rw [block] at hnext
      injection hnext with hnext
      rw [← hnext]
      exact haligned.leads
  | cons first rest =>
      rw [block] at hnext
      obtain ⟨after, hfirst, hrest⟩ := Outcome.bind_eq_ok.1 hnext
      have hleads := statement_leads first haligned hguard hfirst
      apply hleads.trans
      exact block_leads rest hleads.aligned (fun g hg => hleads.within (hguard g hg)) hrest

theorem chain_leads (branches : List Branch) {parent : Option Flags} {taken rest : Flags}
    {run next : Run α} (haligned : run.Aligned)
    (hparent : ∀ flags, parent = some flags → flags.length = run.bars)
    (htaken : taken.length = run.bars)
    (hnext : chain parent run taken branches = .ok (next, rest)) :
    run.Leads next ∧ rest.length = run.bars := by
  cases branches with
  | nil =>
      rw [chain] at hnext
      injection hnext with hnext
      injection hnext with hrun hrest
      rw [← hrun, ← hrest]
      exact ⟨haligned.leads, htaken⟩
  | cons first others =>
      obtain ⟨line, text, body⟩ := first
      obtain ⟨tested, holds, inner, hcondition, hbody, hothers⟩ := chain_cons_eq_ok hnext
      obtain ⟨htested, hholds⟩ := condition_leads haligned hcondition
      have hregister := htested.register (length_active hparent htaken hholds)
      have hinner := hregister.trans
        (block_leads body hregister.aligned (within_register _ _) hbody)
      rw [← hinner.bars] at hparent
      obtain ⟨hlast, hlength⟩ := chain_leads others hinner.aligned hparent
        ((Series.length_zipWith_of htaken hholds).trans hinner.bars.symm) hothers
      exact ⟨hinner.trans hlast, hlength.trans hinner.bars⟩

end

end Run

/-- All series of a finished run have one entry for each bar. -/
theorem execute_aligned {statements : List Statement} {prices : Prices α} {params : Params α}
    {run : Run α} (hprices : prices.Aligned) (hrun : execute statements prices params = .ok run) :
    run.Aligned := by
  obtain ⟨first, hfirst, hrun⟩ := Outcome.bind_eq_ok.1 hrun
  have haligned := Run.start_aligned hprices hfirst
  have hguard : ∀ guard, (none : Option Guard) = some guard → guard.Within first.masks.length := by
    intro guard hguard
    exact nomatch hguard
  exact (Run.block_leads statements haligned hguard hrun).aligned

end Script

end Backtest
