import Backtest.Proofs.Script.Interpretation
import Backtest.Proofs.Script.Texts

/-!
# What a run reports

A run that comes to its end leaves no statement out.  Each assignment at the top has bound its name
or its line is reported, and so is the line of each condition that has no truth values
(`accounts_of_execute`).

Nothing that is reported is taken back, and no name that is bound is lost; `Run.Extends` is this
order on the states of a run.  Under a guard nothing is bound, so that all conditions of a chain are
decided by the names that were there before it (`Run.Keeps`).
-/

namespace Backtest.Script

open Text Backtest.Expr

variable {α : Type}

/-! ## Properties of all conditions -/

section All

variable {first second : Nat → Chars → Prop} {operand : Chars → Prop}

mutual

theorem Statement.All.mono (himplies : ∀ line text, first line text → second line text) :
    ∀ content : Statement, content.All first operand → content.All second operand
  | .assign _ _ _, hall => hall
  | .destructure _ _ _ _, hall => hall
  | .signal _ _ _, hall => hall
  | .chain _ branches otherwise, ⟨hbranches, hotherwise⟩ =>
      ⟨Branch.allOf_mono himplies branches hbranches,
        Statement.allOf_mono himplies otherwise hotherwise⟩

theorem Statement.allOf_mono (himplies : ∀ line text, first line text → second line text) :
    ∀ statements : List Statement,
      Statement.AllOf first operand statements → Statement.AllOf second operand statements
  | [], hall => hall
  | content :: rest, ⟨hcontent, hrest⟩ =>
      ⟨Statement.All.mono himplies content hcontent, Statement.allOf_mono himplies rest hrest⟩

theorem Branch.allOf_mono (himplies : ∀ line text, first line text → second line text) :
    ∀ branches : List Branch,
      Branch.AllOf first operand branches → Branch.AllOf second operand branches
  | [], hall => hall
  | .mk line text body :: rest, ⟨htext, hbody, hrest⟩ =>
      ⟨himplies line text htext, Statement.allOf_mono himplies body hbody,
        Branch.allOf_mono himplies rest hrest⟩

end

end All

/-! ## Later states -/

namespace Run

/-- A later state of a run: what is reported stays reported, and what is bound stays bound. -/
structure Extends (run next : Run α) : Prop where
  unresolved : run.unresolved ⊆ next.unresolved
  bound : ∀ name, (run.env.value? name).isSome = true → (next.env.value? name).isSome = true

/-- A later state in which the names still stand for the same values. -/
structure Keeps (run next : Run α) : Prop where
  unresolved : run.unresolved ⊆ next.unresolved
  context : next.context = run.context

variable {run next last : Run α}

theorem Extends.refl (run : Run α) : run.Extends run := ⟨List.Subset.refl _, fun _ hname => hname⟩

theorem Extends.trans (hfirst : run.Extends next) (hsecond : next.Extends last) :
    run.Extends last :=
  ⟨List.Subset.trans hfirst.unresolved hsecond.unresolved, fun name hname =>
    hsecond.bound name (hfirst.bound name hname)⟩

theorem Keeps.refl (run : Run α) : run.Keeps run := ⟨List.Subset.refl _, rfl⟩

theorem Keeps.trans (hfirst : run.Keeps next) (hsecond : next.Keeps last) : run.Keeps last :=
  ⟨List.Subset.trans hfirst.unresolved hsecond.unresolved, hsecond.context.trans hfirst.context⟩

theorem Keeps.env (hkeeps : run.Keeps next) : next.env = run.env :=
  congrArg Context.env hkeeps.context

theorem Keeps.extends (hkeeps : run.Keeps next) : run.Extends next :=
  ⟨hkeeps.unresolved, fun _ hname => hkeeps.env ▸ hname⟩

theorem keeps_reportUnresolved (run : Run α) (line : Nat) :
    run.Keeps (run.reportUnresolved line) := ⟨List.subset_append_left _ _, rfl⟩

theorem keeps_register (run : Run α) (flags : Flags) : run.Keeps (run.register flags).1 :=
  ⟨List.Subset.refl _, rfl⟩

theorem mem_reportUnresolved (run : Run α) (line : Nat) :
    line ∈ (run.reportUnresolved line).unresolved :=
  List.mem_append_right _ List.mem_cons_self

/-- Binding a name loses none. -/
theorem isSome_value?_bind {env : Environment α} (name other : String) (value : Value α)
    (hother : name = other ∨ (env.value? other).isSome = true) :
    ((env.bind name value).value? other).isSome = true := by
  rw [Environment.bind, Environment.value?_put]
  split
  · rfl
  · next hne => exact hother.resolve_left hne

/-- Binding several names binds all of them and loses none. -/
theorem isSome_value?_bindAll (env : Environment α) (bound : List (String × Series α))
    (name : String) (hname : name ∈ bound.map (·.1) ∨ (env.value? name).isSome = true) :
    ((bound.foldl (fun env entry => env.bind entry.1 (.series entry.2)) env).value?
      name).isSome = true := by
  induction bound generalizing env with
  | nil => exact hname.resolve_left List.not_mem_nil
  | cons entry rest ih =>
      apply ih
      rcases hname with hname | hname
      · rcases List.mem_cons.1 hname with rfl | hname
        · exact .inr (isSome_value?_bind _ _ _ (.inl rfl))
        · exact .inl hname
      · exact .inr (isSome_value?_bind _ _ _ (.inr hname))

end Run

/-! ## Conditions -/

variable [Arith α]

/-- A condition has truth values. -/
def Resolves (context : Context α) (text : Chars) : Prop :=
  ∃ value flags, evaluate? context text = .ok (some value) ∧
    value.truth context.bars = some flags

/-- A condition has truth values, or its line is reported. -/
def Decided (context : Context α) (final : Run α) (line : Nat) (text : Chars) : Prop :=
  Resolves context text ∨ line ∈ final.unresolved

namespace Run

variable {run next last : Run α}

theorem condition_keeps {line : Nat} {text : Chars} {flags : Flags}
    (hnext : run.condition line text = .ok (next, flags)) :
    run.Keeps next ∧ Decided run.context next line text := by
  obtain ⟨found, hfound, hnext⟩ := Outcome.bind_eq_ok.1 hnext
  split at hnext
  · next holds hholds =>
      obtain ⟨value, rfl, htruth⟩ := Option.bind_eq_some_iff.1 hholds
      injection hnext with hnext
      obtain ⟨rfl, rfl⟩ := Prod.mk.inj hnext
      exact ⟨.refl run, .inl ⟨value, holds, hfound, htruth⟩⟩
  · injection hnext with hnext
    obtain ⟨rfl, rfl⟩ := Prod.mk.inj hnext
    exact ⟨keeps_reportUnresolved run line, .inr (mem_reportUnresolved run line)⟩

/-- What is decided by the same names earlier on is decided in a later state. -/
theorem Decided.between {before after : Run α} (hbefore : before.Keeps run)
    (hafter : next.Keeps after) {line : Nat} {text : Chars}
    (hdecided : Decided run.context next line text) :
    Decided before.context after line text := by
  rw [hbefore.context] at hdecided
  exact hdecided.imp_right fun hline => hafter.unresolved hline

mutual

theorem statement_keeps (content : Statement) {guard : Option Guard} {run next : Run α}
    (hacts : guard.isSome = true ∨ content.Acts)
    (hnext : statement guard run content = .ok next) :
    run.Keeps next ∧ content.All (Decided run.context next) (fun _ => True) := by
  cases content with
  | signal line kind label =>
      rw [statement] at hnext
      injection hnext with hnext
      exact ⟨hnext ▸ ⟨List.Subset.refl _, rfl⟩, trivial⟩
  | assign line name expression =>
      rw [statement, if_pos (hacts.resolve_right id)] at hnext
      injection hnext with hnext
      exact ⟨hnext ▸ ⟨List.Subset.refl _, rfl⟩, trivial⟩
  | destructure line names triple arguments =>
      rw [statement, if_pos (hacts.resolve_right id)] at hnext
      injection hnext with hnext
      exact ⟨hnext ▸ ⟨List.Subset.refl _, rfl⟩, fun _ _ => trivial⟩
  | chain line branches otherwise =>
      obtain ⟨after, taken, hchain, hrest⟩ := statement_chain_eq_ok hnext
      obtain ⟨hkeeps, hbranches⟩ := chain_keeps branches hchain
      rcases hrest with ⟨rfl, rfl⟩ | hblock
      · exact ⟨hkeeps, hbranches, trivial⟩
      · obtain ⟨hlast, hotherwise⟩ := block_keeps otherwise rfl hblock
        have hentered := keeps_register after
          (active (guard.map run.mask) taken (List.replicate after.bars true))
        refine ⟨hkeeps.trans (hentered.trans hlast), ?_, ?_⟩
        · exact Branch.allOf_mono
            (fun _ _ => Decided.between (.refl run) (hentered.trans hlast)) _ hbranches
        · exact Statement.allOf_mono
            (fun _ _ => Decided.between (hkeeps.trans hentered) (.refl next)) _ hotherwise

theorem block_keeps (statements : List Statement) {guard : Option Guard} {run next : Run α}
    (hguard : guard.isSome = true) (hnext : block guard run statements = .ok next) :
    run.Keeps next ∧ Statement.AllOf (Decided run.context next) (fun _ => True) statements := by
  cases statements with
  | nil =>
      rw [block] at hnext
      injection hnext with hnext
      exact ⟨hnext ▸ .refl run, trivial⟩
  | cons first rest =>
      rw [block] at hnext
      obtain ⟨after, hfirst, hrest⟩ := Outcome.bind_eq_ok.1 hnext
      obtain ⟨hkeeps, hcontent⟩ := statement_keeps first (.inl hguard) hfirst
      obtain ⟨hlast, hothers⟩ := block_keeps rest hguard hrest
      refine ⟨hkeeps.trans hlast, ?_, ?_⟩
      · exact Statement.All.mono (fun _ _ => Decided.between (.refl run) hlast) _ hcontent
      · exact Statement.allOf_mono (fun _ _ => Decided.between hkeeps (.refl next)) _ hothers

theorem chain_keeps (branches : List Branch) {parent : Option Flags} {taken rest : Flags}
    {run next : Run α} (hnext : chain parent run taken branches = .ok (next, rest)) :
    run.Keeps next ∧ Branch.AllOf (Decided run.context next) (fun _ => True) branches := by
  cases branches with
  | nil =>
      rw [chain] at hnext
      injection hnext with hnext
      obtain ⟨rfl, rfl⟩ := Prod.mk.inj hnext
      exact ⟨.refl run, trivial⟩
  | cons first others =>
      obtain ⟨line, text, body⟩ := first
      obtain ⟨tested, holds, inner, hcondition, hbody, hothers⟩ := chain_cons_eq_ok hnext
      obtain ⟨htested, htext⟩ := condition_keeps hcondition
      obtain ⟨hinner, hstatements⟩ := block_keeps body rfl hbody
      obtain ⟨hlast, hbranches⟩ := chain_keeps others hothers
      have hentered := htested.trans (keeps_register tested (active parent taken holds))
      have hleft := (keeps_register tested (active parent taken holds)).trans (hinner.trans hlast)
      refine ⟨htested.trans hleft, Decided.between (.refl run) hleft htext, ?_, ?_⟩
      · exact Statement.allOf_mono (fun _ _ => Decided.between hentered hlast) _ hstatements
      · exact Branch.allOf_mono
          (fun _ _ => Decided.between (hentered.trans hinner) (.refl next)) _ hbranches

end

/-! ## Statements at the top -/

/-- What has become of a statement at the top in the state after it and at the end of the run. -/
def Accounted (run next final : Run α) : Statement → Prop
  | .assign line name expression =>
      (∃ value, evaluate? run.context expression = .ok (some value) ∧
        next.env.value? name = some value ∧ (final.env.value? name).isSome = true) ∨
      evaluate? run.context expression = .ok none ∧ line ∈ final.unresolved
  | .destructure line names triple arguments =>
      (∃ results, evaluateTriple? run.context triple arguments = .ok (some results) ∧
        ∀ name ∈ names.take 3, (next.env.value? name).isSome = true ∧
          (final.env.value? name).isSome = true) ∨
      evaluateTriple? run.context triple arguments = .ok none ∧ line ∈ final.unresolved
  | .signal _ _ _ => True
  | .chain _ branches otherwise =>
      Branch.AllOf (Decided run.context final) (fun _ => True) branches ∧
        Statement.AllOf (Decided run.context final) (fun _ => True) otherwise

theorem Accounted.extends {content : Statement} (haccounted : Accounted run next next content)
    (hlast : next.Extends last) : Accounted run next last content := by
  have hdecided : ∀ line text, Decided run.context next line text →
      Decided run.context last line text :=
    fun _ _ => .imp_right fun hline => hlast.unresolved hline
  cases content with
  | signal line kind label => trivial
  | assign line name expression =>
      refine haccounted.imp ?_ fun ⟨hnone, hline⟩ => ⟨hnone, hlast.unresolved hline⟩
      rintro ⟨value, hvalue, hbound, hname⟩
      exact ⟨value, hvalue, hbound, hlast.bound name hname⟩
  | destructure line names triple arguments =>
      refine haccounted.imp ?_ fun ⟨hnone, hline⟩ => ⟨hnone, hlast.unresolved hline⟩
      rintro ⟨results, hresults, hnames⟩
      exact ⟨results, hresults, fun name hname =>
        ⟨(hnames name hname).1, hlast.bound name (hnames name hname).1⟩⟩
  | chain line branches otherwise =>
      exact ⟨Branch.allOf_mono hdecided branches haccounted.1,
        Statement.allOf_mono hdecided otherwise haccounted.2⟩

theorem assign_accounted {line : Nat} {name : String} {expression : Chars}
    (hnext : run.assign line name expression = .ok next) :
    run.Extends next ∧ Accounted run next next (.assign line name expression) := by
  obtain ⟨found, hfound, hnext⟩ := Outcome.bind_eq_ok.1 hnext
  cases found with
  | none =>
      injection hnext with hnext
      rw [← hnext]
      exact ⟨(keeps_reportUnresolved run line).extends,
        .inr ⟨hfound, mem_reportUnresolved run line⟩⟩
  | some value =>
      injection hnext with hnext
      rw [← hnext]
      have hbound : (run.env.bind name value).value? name = some value := by
        rw [Environment.bind, Environment.value?_put, if_pos rfl]
      refine ⟨⟨List.Subset.refl _, fun other hother => ?_⟩, .inl ⟨value, hfound, hbound, ?_⟩⟩
      · exact isSome_value?_bind name other value (.inr hother)
      · exact isSome_value?_bind name name value (.inl rfl)

theorem destructure_accounted {line : Nat} {names : List String} {triple : Triple}
    {arguments : List Chars} (hnext : run.destructure line names triple arguments = .ok next) :
    run.Extends next ∧ Accounted run next next (.destructure line names triple arguments) := by
  obtain ⟨found, hfound, hnext⟩ := Outcome.bind_eq_ok.1 hnext
  cases found with
  | none =>
      injection hnext with hnext
      rw [← hnext]
      exact ⟨(keeps_reportUnresolved run line).extends,
        .inr ⟨hfound, mem_reportUnresolved run line⟩⟩
  | some results =>
      obtain ⟨first, second, third⟩ := results
      injection hnext with hnext
      rw [← hnext]
      refine ⟨⟨List.Subset.refl _, fun other hother => ?_⟩, .inl ⟨_, hfound, fun name hname => ?_⟩⟩
      · exact isSome_value?_bindAll _ _ other (.inr hother)
      · have hzip : (names.zip [first, second, third]).map (·.1) = names.take 3 := by
          rcases names with _ | ⟨_, _ | ⟨_, _ | ⟨_, _⟩⟩⟩ <;> simp
        have hbound := isSome_value?_bindAll run.env (names.zip [first, second, third]) name
          (.inl (hzip ▸ hname))
        exact ⟨hbound, hbound⟩

/-- No statement at the top is left out. -/
theorem statement_accounted {content : Statement} (hnext : statement none run content = .ok next) :
    run.Extends next ∧ Accounted run next next content := by
  cases content with
  | signal line kind label =>
      have hacts : (Statement.signal line kind label).Acts := trivial
      obtain ⟨hkeeps, _⟩ := statement_keeps _ (.inr hacts) hnext
      exact ⟨hkeeps.extends, trivial⟩
  | chain line branches otherwise =>
      have hacts : (Statement.chain line branches otherwise).Acts := trivial
      obtain ⟨hkeeps, hall⟩ := statement_keeps _ (.inr hacts) hnext
      exact ⟨hkeeps.extends, hall⟩
  | assign line name expression => exact assign_accounted hnext
  | destructure line names triple arguments => exact destructure_accounted hnext

theorem block_extends {statements : List Statement}
    (hnext : block none run statements = .ok next) : run.Extends next := by
  induction statements generalizing run with
  | nil =>
      injection hnext with hnext
      exact hnext ▸ .refl run
  | cons first rest ih =>
      obtain ⟨after, hfirst, hrest⟩ := Outcome.bind_eq_ok.1 hnext
      exact (statement_accounted hfirst).1.trans (ih hrest)

theorem block_append {guard : Option Guard} (first second : List Statement) :
    block guard run (first ++ second) =
      block guard run first >>= fun after => block guard after second := by
  induction first generalizing run with
  | nil => rfl
  | cons content rest ih =>
      rw [List.cons_append, block, block, bind_assoc]
      exact congrArg _ (funext fun after => ih)

end Run

/-! ## Whole runs -/

/-- Each statement at the top of a script is accounted for in a run of it. -/
def Accounts (statements : List Statement) (prices : Prices α) (params : Params α)
    (final : Run α) : Prop :=
  ∀ before content after, statements = before ++ content :: after →
    ∃ run next, execute before prices params = .ok run ∧
      execute (before ++ [content]) prices params = .ok next ∧
      Run.Accounted run next final content

/-- A run that comes to its end accounts for all statements. -/
theorem accounts_of_execute {statements : List Statement} {prices : Prices α} {params : Params α}
    {final : Run α} (hrun : execute statements prices params = .ok final) :
    Accounts statements prices params final := by
  rintro before content after rfl
  obtain ⟨start, hstart, hrun⟩ := Outcome.bind_eq_ok.1 hrun
  rw [Run.block_append] at hrun
  obtain ⟨run, hbefore, hrun⟩ := Outcome.bind_eq_ok.1 hrun
  obtain ⟨next, hnext, hafter⟩ := Outcome.bind_eq_ok.1 hrun
  refine ⟨run, next, ?_, ?_, ?_⟩
  · rw [execute, hstart]
    exact hbefore
  · rw [execute, hstart]
    change start.block none (before ++ [content]) = _
    rw [Run.block_append, hbefore]
    change (Run.statement none run content >>= fun next => Run.block none next []) = _
    rw [hnext]
    rfl
  · exact (Run.statement_accounted hnext).2.extends (Run.block_extends hafter)

end Backtest.Script
