import Backtest.Decimal.Double
import Backtest.Proofs.Script.Length

/-!
# Scripts bar by bar

An ordinary interpreter takes one bar at a time.  It walks the statements from the top, decides each
condition at its bar, goes into the first branch whose condition holds and into the last part if
there is none, and collects the signal calls that it comes by.

A run does not branch: it goes through all bodies once for all bars and keeps masks.  The theorem of
this file says that the masks are exact.  The signals of a run whose mask holds at a bar are the
calls that the interpreter reaches there, in the same order.

The proof looks at one bar of the masks.  A body delivers what the interpreter reaches if its guard
holds at the bar and nothing otherwise; this is `Yields`, and a chain keeps it from branch to branch
with `parent && !taken` as the part of the chain that is still open.
-/

namespace Backtest.Script

open Text Backtest.Expr

/-- A signal call as an interpreter comes by it. -/
structure Reached where
  kind : SignalKind
  label : Option String
  deriving DecidableEq

/-- A truth series at one bar. -/
def truthAt (bar : Nat) (flags : Flags) : Bool := flags[bar]?.getD false

variable {α : Type} [Arith α]

/-! ## The interpreter -/

namespace Interpreter

/-- A condition at one bar; one that does not resolve to truth values does not hold. -/
def holdsAt (context : Context α) (bar : Nat) (text : Chars) : Outcome Bool := do
  match (← evaluate? context text).bind (·.truth context.bars) with
  | some flags => pure (truthAt bar flags)
  | none => pure false

mutual

/-- The calls in a statement that binds no name at the top. -/
def statement (context : Context α) (bar : Nat) : Statement → Outcome (List Reached)
  | .signal _ kind label => .ok [⟨kind, label⟩]
  | .chain _ branches otherwise => chain context bar (block context bar otherwise) branches
  | .assign _ _ _ | .destructure _ _ _ _ => .ok []

def block (context : Context α) (bar : Nat) : List Statement → Outcome (List Reached)
  | [] => .ok []
  | first :: rest => do
      let front ← statement context bar first
      let back ← block context bar rest
      pure (front ++ back)

/-- The calls in the first branch whose condition holds, or else in the last part. -/
def chain (context : Context α) (bar : Nat) (otherwise : Outcome (List Reached)) :
    List Branch → Outcome (List Reached)
  | [] => otherwise
  | .mk _ text body :: rest => do
      if ← holdsAt context bar text then block context bar body
      else chain context bar otherwise rest

end

/-- Gives a name its value, if the expression had one. -/
def assign (context : Context α) (name : String) : Option (Value α) → Context α
  | some value => { context with env := context.env.bind name value }
  | none => context

/-- Gives up to three names the results of a call, if it had results. -/
def destructure (context : Context α) (names : List String) :
    Option (Series α × Series α × Series α) → Context α
  | some (first, second, third) =>
      { context with
        env := (names.zip [first, second, third]).foldl
          (fun env entry => env.bind entry.1 (.series entry.2)) context.env }
  | none => context

/-- The calls in the statements at the top, where names are bound on the way. -/
def script (bar : Nat) (context : Context α) : List Statement → Outcome (List Reached)
  | [] => .ok []
  | .assign _ name expression :: rest => do
      let value ← evaluate? context expression
      script bar (assign context name value) rest
  | .destructure _ names triple arguments :: rest => do
      let results ← evaluateTriple? context triple arguments
      script bar (destructure context names results) rest
  | first :: rest => do
      let front ← statement context bar first
      let back ← script bar context rest
      pure (front ++ back)

/-- The calls that an interpreter of a script reaches at one bar of a table. -/
def interpret (statements : List Statement) (prices : Prices α) (params : Params α) (bar : Nat) :
    Outcome (List Reached) := do
  script bar ⟨← Environment.start prices params, prices.length⟩ statements

end Interpreter

/-- A statement that binds no name. -/
def Statement.Acts : Statement → Prop
  | .signal _ _ _ | .chain _ _ _ => True
  | .assign _ _ _ | .destructure _ _ _ _ => False

namespace Run

/-- A guard at one bar. -/
def holds (run : Run α) (bar : Nat) (guard : Guard) : Bool := truthAt bar (run.mask guard)

/-- The signals of a run whose guard holds at a bar, in their order. -/
def reachedAt (run : Run α) (bar : Nat) : List Reached :=
  (run.signals.filter fun signal => run.holds bar signal.guard).map fun signal =>
    ⟨signal.kind, signal.label⟩

end Run

/-! ## Masks at one bar -/

section Masks

variable {bar bars : Nat}

theorem truthAt_replicate (flag : Bool) (hbar : bar < bars) :
    truthAt bar (List.replicate bars flag) = flag := by
  rw [truthAt, List.getElem?_replicate, if_pos hbar]
  rfl

theorem truthAt_zipWith (f : Bool → Bool → Bool) {p q : Flags} (hp : p.length = bars)
    (hq : q.length = bars) (hbar : bar < bars) :
    truthAt bar (List.zipWith f p q) = f (truthAt bar p) (truthAt bar q) := by
  rw [truthAt, truthAt, truthAt, List.getElem?_zipWith,
    List.getElem?_eq_getElem (hp.symm ▸ hbar), List.getElem?_eq_getElem (hq.symm ▸ hbar)]
  rfl

theorem truthAt_active {parent : Option Flags} {taken condition : Flags}
    (hparent : ∀ flags, parent = some flags → flags.length = bars) (htaken : taken.length = bars)
    (hcondition : condition.length = bars) (hbar : bar < bars) :
    truthAt bar (Run.active parent taken condition) =
      (parent.all (truthAt bar) && !truthAt bar taken && truthAt bar condition) := by
  have hown := truthAt_zipWith (fun holds before => holds && !before) hcondition htaken hbar
  cases parent with
  | none =>
      rw [Run.active, hown, Option.all_none, Bool.true_and, Bool.and_comm]
  | some flags =>
      rw [Run.active,
        truthAt_zipWith _ (Series.length_zipWith_of hcondition htaken) (hparent flags rfl)
        hbar, hown, Option.all_some, Bool.and_comm (truthAt bar condition),
        Bool.and_comm _ (truthAt bar flags), Bool.and_assoc]

end Masks

/-! ## What a body delivers -/

/-- A body whose guard holds delivers what the interpreter reaches, and any other body nothing. -/
def Yields (isOpen : Bool) (interpreted : Outcome (List Reached)) (calls : List Reached) : Prop :=
  if isOpen then interpreted = .ok calls else calls = []

theorem yields_nil (isOpen : Bool) : Yields isOpen (.ok []) [] := by
  cases isOpen <;> rfl

theorem Yields.append {isOpen : Bool} {first rest : Outcome (List Reached)}
    {front back : List Reached} (hfront : Yields isOpen first front)
    (hback : Yields isOpen rest back) :
    Yields isOpen (do let x ← first; let y ← rest; pure (x ++ y)) (front ++ back) := by
  cases isOpen with
  | false =>
      change front = [] at hfront
      change back = [] at hback
      rw [hfront, hback]
      rfl
  | true =>
      change first = .ok front at hfront
      change rest = .ok back at hback
      rw [hfront, hback]
      rfl

/-- A branch that is taken closes the rest of its chain, and one that is not leaves it open. -/
theorem Yields.branch {isOpen test : Bool} {body rest : Outcome (List Reached)}
    {inner later : List Reached} (hinner : Yields (isOpen && test) body inner)
    (hlater : Yields (isOpen && !test) rest later) :
    Yields isOpen (if test then body else rest) (inner ++ later) := by
  cases isOpen with
  | false =>
      change inner = [] at hinner
      change later = [] at hlater
      rw [hinner, hlater]
      rfl
  | true =>
      cases test with
      | true =>
          change body = .ok inner at hinner
          change later = [] at hlater
          rw [hlater, List.append_nil]
          exact hinner
      | false =>
          change inner = [] at hinner
          change rest = .ok later at hlater
          rw [hinner]
          exact hlater

namespace Run

variable {bar : Nat} {run next last : Run α}

/-- A run that has come out of another one with the same names, and the calls at one bar that it has
added. -/
structure Delivers (bar : Nat) (run next : Run α) (calls : List Reached) : Prop where
  leads : run.Leads next
  env : next.env = run.env
  reached : next.reachedAt bar = run.reachedAt bar ++ calls

omit [Arith α] in
theorem Delivers.context {calls : List Reached} (hnext : Delivers bar run next calls) :
    next.context = run.context := by
  rw [Run.context, Run.context, hnext.env, hnext.leads.bars]

omit [Arith α] in
theorem Delivers.holds {calls : List Reached} (hnext : Delivers bar run next calls) {guard : Guard}
    (hguard : guard.Within run.masks.length) : next.holds bar guard = run.holds bar guard :=
  congrArg (truthAt bar) (hnext.leads.mask hguard)

omit [Arith α] in
theorem Delivers.trans {front back : List Reached} (hfirst : Delivers bar run next front)
    (hsecond : Delivers bar next last back) : Delivers bar run last (front ++ back) := by
  refine ⟨hfirst.leads.trans hsecond.leads, hsecond.env.trans hfirst.env, ?_⟩
  rw [hsecond.reached, hfirst.reached, List.append_assoc]

omit [Arith α] in
/-- Masks that are added change nothing for the signals that are there. -/
theorem Leads.reachedAt (hleads : run.Leads next) (haligned : run.Aligned)
    (hsignals : next.signals = run.signals) : next.reachedAt bar = run.reachedAt bar := by
  rw [Run.reachedAt, Run.reachedAt, hsignals]
  congr 1
  apply List.filter_congr
  intro signal hsignal
  exact congrArg (truthAt bar) (hleads.mask (haligned.guards signal hsignal))

omit [Arith α] in
theorem Leads.delivers (hleads : run.Leads next) (haligned : run.Aligned)
    (henv : next.env = run.env) (hsignals : next.signals = run.signals) :
    Delivers bar run next [] :=
  ⟨hleads, henv, by rw [hleads.reachedAt haligned hsignals, List.append_nil]⟩

omit [Arith α] in
theorem emit_delivers (haligned : run.Aligned) {signal : Signal}
    (hsignal : signal.guard.Within run.masks.length) :
    Delivers bar run (run.emit signal)
      (if run.holds bar signal.guard then [⟨signal.kind, signal.label⟩] else []) := by
  refine ⟨haligned.emit hsignal, rfl, ?_⟩
  change List.map _ ((run.signals ++ [signal]).filter fun other => run.holds bar other.guard) = _
  rw [List.filter_append, List.map_append]
  congr 1
  rw [List.filter_cons, List.filter_nil]
  split <;> rfl

/-- A condition adds no call, and the interpreter decides it as its series says. -/
theorem condition_delivers {line : Nat} {text : Chars} {flags : Flags} (haligned : run.Aligned)
    (hbar : bar < run.bars) (hnext : run.condition line text = .ok (next, flags)) :
    Delivers bar run next [] ∧
      Interpreter.holdsAt run.context bar text = .ok (truthAt bar flags) := by
  obtain ⟨hleads, _⟩ := condition_leads haligned hnext
  obtain ⟨value, hvalue, hnext⟩ := Outcome.bind_eq_ok.1 hnext
  rw [Interpreter.holdsAt, hvalue]
  change _ ∧ (match value.bind (·.truth run.bars) with
    | some flags => Except.ok (truthAt bar flags)
    | none => Except.ok false) = _
  change (match value.bind (·.truth run.bars) with
    | some flags => Except.ok (run, flags)
    | none => Except.ok (run.reportUnresolved line, List.replicate run.bars false)) = _ at hnext
  cases hholds : value.bind (·.truth run.bars) with
  | some holds =>
      rw [hholds] at hnext
      injection hnext with hnext
      injection hnext with hrun hflags
      rw [← hflags]
      refine ⟨hleads.delivers haligned ?_ ?_, rfl⟩ <;> rw [← hrun]
  | none =>
      rw [hholds] at hnext
      injection hnext with hnext
      injection hnext with hrun hflags
      rw [← hflags, truthAt_replicate false hbar]
      refine ⟨hleads.delivers haligned ?_ ?_, rfl⟩ <;> rw [← hrun] <;> rfl

omit [Arith α] in
theorem register_delivers (haligned : run.Aligned) {flags : Flags}
    (hflags : flags.length = run.bars) : Delivers bar run (run.register flags).1 [] :=
  (haligned.register hflags).delivers haligned rfl rfl

/-! ## Bodies and chains -/

mutual

theorem statement_delivers (content : Statement) {guard : Option Guard} {run next : Run α}
    (haligned : run.Aligned) (hguard : ∀ g, guard = some g → g.Within run.masks.length)
    (hbar : bar < run.bars) (hacts : guard.isSome = true ∨ content.Acts)
    (hnext : statement guard run content = .ok next) :
    ∃ calls, Delivers bar run next calls ∧
      Yields (guard.all (run.holds bar)) (Interpreter.statement run.context bar content) calls := by
  cases content with
  | signal line kind label =>
      rw [statement] at hnext
      injection hnext with hnext
      rw [← hnext, Interpreter.statement]
      cases guard with
      | none =>
          have hholds : run.holds bar .always = true := truthAt_replicate true hbar
          have hdelivers : Delivers bar run (run.emit ⟨kind, .always, label⟩) _ :=
            emit_delivers haligned trivial
          rw [if_pos hholds] at hdelivers
          exact ⟨_, hdelivers, rfl⟩
      | some g =>
          refine ⟨_, emit_delivers haligned (hguard g rfl), ?_⟩
          change Yields (run.holds bar g) _ (if run.holds bar g = true then _ else _)
          cases run.holds bar g <;> rfl
  | assign line name expression =>
      have hsome : guard.isSome = true := hacts.resolve_right id
      rw [statement, if_pos hsome] at hnext
      injection hnext with hnext
      rw [← hnext, Interpreter.statement]
      exact ⟨[], (haligned.reportSkipped line).delivers haligned rfl rfl, yields_nil _⟩
  | destructure line names triple arguments =>
      have hsome : guard.isSome = true := hacts.resolve_right id
      rw [statement, if_pos hsome] at hnext
      injection hnext with hnext
      rw [← hnext, Interpreter.statement]
      exact ⟨[], (haligned.reportSkipped line).delivers haligned rfl rfl, yields_nil _⟩
  | chain line branches otherwise =>
      obtain ⟨after, taken, hchain, hrest⟩ := statement_chain_eq_ok hnext
      have hparent := haligned.length_parent hguard
      have hopen : (guard.map run.mask).all (truthAt bar) = guard.all (run.holds bar) := by
        cases guard <;> rfl
      obtain ⟨calls, hdelivers, htaken, hyields⟩ :=
        chain_delivers branches haligned hparent List.length_replicate hbar hchain
      rw [truthAt_replicate false hbar, Bool.not_false, Bool.and_true, hopen] at hyields
      rw [Interpreter.statement]
      rcases hrest with ⟨hnil, hafter⟩ | hblock
      · rw [hnil, hafter]
        have hlast := hyields (.ok []) [] (yields_nil _)
        rw [List.append_nil] at hlast
        exact ⟨calls, hdelivers, hlast⟩
      · have hbars := hdelivers.leads.bars
        have hall : (List.replicate after.bars true).length = run.bars := by
          rw [List.length_replicate, hbars]
        have hregister : Delivers bar after _ [] := register_delivers hdelivers.leads.aligned
          ((length_active hparent htaken hall).trans hbars.symm)
        obtain ⟨last, hlast, hotherwise⟩ := block_delivers otherwise hregister.leads.aligned
          (register_within ..) (by rw [hregister.leads.bars, hbars]; exact hbar) hblock
        rw [holds, mask_register, truthAt_active hparent htaken hall hbar, hopen,
          hregister.context, hdelivers.context, hbars, truthAt_replicate true hbar,
          Bool.and_true] at hotherwise
        exact ⟨calls ++ last, hdelivers.trans (hregister.trans hlast), hyields _ last hotherwise⟩

theorem block_delivers (statements : List Statement) {guard : Guard} {run next : Run α}
    (haligned : run.Aligned) (hguard : guard.Within run.masks.length) (hbar : bar < run.bars)
    (hnext : block (some guard) run statements = .ok next) :
    ∃ calls, Delivers bar run next calls ∧
      Yields (run.holds bar guard) (Interpreter.block run.context bar statements) calls := by
  cases statements with
  | nil =>
      rw [block] at hnext
      injection hnext with hnext
      rw [← hnext, Interpreter.block]
      exact ⟨[], haligned.leads.delivers haligned rfl rfl, yields_nil _⟩
  | cons first rest =>
      rw [block] at hnext
      obtain ⟨after, hfirst, hrest⟩ := Outcome.bind_eq_ok.1 hnext
      have hsome : ∀ g, some guard = some g → g.Within run.masks.length := by
        intro g hg
        injection hg with hg
        exact hg ▸ hguard
      obtain ⟨front, hfront, hyields⟩ :=
        statement_delivers first haligned hsome hbar (.inl rfl) hfirst
      obtain ⟨back, hback, hlater⟩ := block_delivers rest hfront.leads.aligned
        (hfront.leads.within hguard) (hfront.leads.bars.symm ▸ hbar) hrest
      rw [hfront.holds hguard, hfront.context] at hlater
      rw [Interpreter.block]
      exact ⟨front ++ back, hfront.trans hback, hyields.append hlater⟩

theorem chain_delivers (branches : List Branch) {parent : Option Flags} {taken rest : Flags}
    {run next : Run α} (haligned : run.Aligned)
    (hparent : ∀ flags, parent = some flags → flags.length = run.bars)
    (htaken : taken.length = run.bars) (hbar : bar < run.bars)
    (hnext : chain parent run taken branches = .ok (next, rest)) :
    ∃ calls, Delivers bar run next calls ∧ rest.length = run.bars ∧
      ∀ otherwise last, Yields (parent.all (truthAt bar) && !truthAt bar rest) otherwise last →
        Yields (parent.all (truthAt bar) && !truthAt bar taken)
          (Interpreter.chain run.context bar otherwise branches) (calls ++ last) := by
  cases branches with
  | nil =>
      rw [chain] at hnext
      injection hnext with hnext
      injection hnext with hrun hrest
      rw [← hrun, ← hrest]
      refine ⟨[], haligned.leads.delivers haligned rfl rfl, htaken, ?_⟩
      intro otherwise last hlast
      rw [Interpreter.chain]
      exact hlast
  | cons first others =>
      obtain ⟨line, text, body⟩ := first
      obtain ⟨tested, holds, inner, hcondition, hbody, hothers⟩ := chain_cons_eq_ok hnext
      obtain ⟨htested, htest⟩ := condition_delivers haligned hbar hcondition
      have hholds := (condition_leads haligned hcondition).2
      have hregister := htested.trans (register_delivers htested.leads.aligned
        ((length_active hparent htaken hholds).trans htested.leads.bars.symm))
      obtain ⟨front, hfront, hinner⟩ := block_delivers body hregister.leads.aligned
        (register_within ..) (hregister.leads.bars.symm ▸ hbar) hbody
      rw [Run.holds, mask_register, truthAt_active hparent htaken hholds hbar,
        hregister.context] at hinner
      have hreach := hregister.trans hfront
      have hbars := hreach.leads.bars
      obtain ⟨back, hback, hlength, hlater⟩ := chain_delivers others hreach.leads.aligned
        (hbars.symm ▸ hparent) ((Series.length_zipWith_of htaken hholds).trans hbars.symm)
        (hbars.symm ▸ hbar) hothers
      refine ⟨front ++ back, hreach.trans hback, hlength.trans hbars, ?_⟩
      intro otherwise last hlast
      have hyields := hlater otherwise last hlast
      rw [truthAt_zipWith _ htaken hholds hbar, Bool.not_or, ← Bool.and_assoc,
        hreach.context] at hyields
      rw [Interpreter.chain, htest, List.append_assoc]
      exact hinner.branch hyields

end

/-! ## Whole scripts -/

/-- A binding at the top takes the interpreter to the names of the run after it. -/
theorem assign_interpreted {line : Nat} {name : String} {expression : Chars}
    (hnext : run.assign line name expression = .ok next) :
    ∃ value, evaluate? run.context expression = .ok value ∧
      next.context = Interpreter.assign run.context name value ∧ next.signals = run.signals := by
  obtain ⟨value, hvalue, hnext⟩ := Outcome.bind_eq_ok.1 hnext
  refine ⟨value, hvalue, ?_⟩
  cases value with
  | none => injection hnext with hnext; rw [← hnext]; exact ⟨rfl, rfl⟩
  | some value => injection hnext with hnext; rw [← hnext]; exact ⟨rfl, rfl⟩

theorem destructure_interpreted {line : Nat} {names : List String} {triple : Triple}
    {arguments : List Chars} (hnext : run.destructure line names triple arguments = .ok next) :
    ∃ results, evaluateTriple? run.context triple arguments = .ok results ∧
      next.context = Interpreter.destructure run.context names results ∧
      next.signals = run.signals := by
  obtain ⟨results, hresults, hnext⟩ := Outcome.bind_eq_ok.1 hnext
  refine ⟨results, hresults, ?_⟩
  cases results with
  | none => injection hnext with hnext; rw [← hnext]; exact ⟨rfl, rfl⟩
  | some results => injection hnext with hnext; rw [← hnext]; exact ⟨rfl, rfl⟩

/-- The interpreter goes on behind a statement that binds no name. -/
theorem script_cons_of_acts {context : Context α} {first : Statement} {rest : List Statement}
    (hacts : first.Acts) :
    Interpreter.script bar context (first :: rest) = (do
      let front ← Interpreter.statement context bar first
      let back ← Interpreter.script bar context rest
      pure (front ++ back)) := by
  cases first with
  | signal line kind label => rfl
  | chain line branches otherwise => rfl
  | assign line name expression => exact hacts.elim
  | destructure line names triple arguments => exact hacts.elim

theorem block_interpreted (statements : List Statement) {run next : Run α}
    (haligned : run.Aligned) (hbar : bar < run.bars)
    (hnext : block none run statements = .ok next) :
    ∃ calls, Interpreter.script bar run.context statements = .ok calls ∧
      next.reachedAt bar = run.reachedAt bar ++ calls := by
  induction statements generalizing run with
  | nil =>
      rw [block] at hnext
      injection hnext with hnext
      rw [← hnext]
      exact ⟨[], rfl, (List.append_nil _).symm⟩
  | cons first rest ih =>
      rw [block] at hnext
      obtain ⟨after, hfirst, hrest⟩ := Outcome.bind_eq_ok.1 hnext
      have hguard : ∀ g, (none : Option Guard) = some g → g.Within run.masks.length := by
        intro g hg
        exact nomatch hg
      have hleads := statement_leads first haligned hguard hfirst
      obtain ⟨calls, hcalls, hreached⟩ :=
        ih hleads.aligned (hleads.bars.symm ▸ hbar) hrest
      have hact : first.Acts → ∃ calls,
          Interpreter.script bar run.context (first :: rest) = .ok calls ∧
            next.reachedAt bar = run.reachedAt bar ++ calls := by
        intro hacts
        obtain ⟨front, hfront, hyields⟩ :=
          statement_delivers first haligned hguard hbar (.inr hacts) hfirst
        change Interpreter.statement run.context bar first = .ok front at hyields
        rw [hfront.context] at hcalls
        refine ⟨front ++ calls, ?_, ?_⟩
        · rw [script_cons_of_acts hacts, hyields, hcalls]
          rfl
        · rw [hreached, hfront.reached, List.append_assoc]
      cases first with
      | assign line name expression =>
          rw [statement] at hfirst
          obtain ⟨value, hvalue, hcontext, hsignals⟩ := assign_interpreted hfirst
          refine ⟨calls, ?_, ?_⟩
          · rw [Interpreter.script, hvalue, ← hcalls, hcontext]
            rfl
          · rw [hreached, hleads.reachedAt haligned hsignals]
      | destructure line names triple arguments =>
          rw [statement] at hfirst
          obtain ⟨results, hresults, hcontext, hsignals⟩ := destructure_interpreted hfirst
          refine ⟨calls, ?_, ?_⟩
          · rw [Interpreter.script, hresults, ← hcalls, hcontext]
            rfl
          · rw [hreached, hleads.reachedAt haligned hsignals]
      | signal line kind label => exact hact trivial
      | chain line branches otherwise => exact hact trivial

end Run

/-- Masks are exact: the signals of a run that hold at a bar are the calls that an ordinary
interpreter of the script reaches at that bar, in the same order. -/
theorem interpret_eq_reachedAt {statements : List Statement} {prices : Prices α}
    {params : Params α} {run : Run α} {bar : Nat} (hprices : prices.Aligned)
    (hbar : bar < prices.length) (hrun : execute statements prices params = .ok run) :
    Interpreter.interpret statements prices params bar = .ok (run.reachedAt bar) := by
  obtain ⟨first, hfirst, hrun⟩ := Outcome.bind_eq_ok.1 hrun
  have haligned := Run.start_aligned hprices hfirst
  obtain ⟨env, henv, hfirst⟩ := Outcome.bind_eq_ok.1 hfirst
  injection hfirst with hfirst
  rw [← hfirst] at hrun haligned
  obtain ⟨calls, hcalls, hreached⟩ := Run.block_interpreted statements haligned hbar hrun
  have hstart : run.reachedAt bar = calls := hreached
  rw [Interpreter.interpret, henv, hstart]
  exact hcalls

/-- A chain whose first condition does not resolve and whose second branch holds another chain. -/
def nestedChain : List Statement :=
  [.chain 1
    [.mk 1 "trend".toList [.signal 2 .openLong none],
      .mk 3 "true".toList
        [.chain 4 [.mk 4 "false".toList [.signal 5 .closeLong none]]
          [.signal 7 .openShort (some "S")]]]
    [.signal 9 .closeAny none]]

/-- Two bars at a price of one. -/
def flatPrices : Prices Float := ⟨[0, 60000], [1, 1], [1, 1], [1, 1], [1, 1], [1, 1]⟩

theorem interpret_nestedChain :
    ∃ run, flatPrices.Aligned ∧ 1 < flatPrices.length ∧
      execute nestedChain flatPrices [] = .ok run ∧
      run.reachedAt 1 = [⟨.openShort, some "S"⟩] ∧
      Interpreter.interpret nestedChain flatPrices [] 1 = .ok (run.reachedAt 1) := by
  have hok : (execute nestedChain flatPrices []).isOk = true := by decide +kernel
  have hcalls : (Interpreter.interpret nestedChain flatPrices [] 1).toOption =
      some [⟨.openShort, some "S"⟩] := by decide +kernel
  cases hrun : execute nestedChain flatPrices [] with
  | error fault => rw [hrun] at hok; exact nomatch hok
  | ok run =>
      have haligned : flatPrices.Aligned := ⟨rfl, rfl, rfl, rfl, rfl⟩
      have hinterpret := interpret_eq_reachedAt haligned (by decide : 1 < flatPrices.length) hrun
      rw [hinterpret] at hcalls
      injection hcalls with hcalls
      exact ⟨run, haligned, by decide, rfl, hcalls, hinterpret⟩

end Backtest.Script
