import Backtest.Proofs.Expr.Binding
import Backtest.Proofs.Expr.Fault
import Backtest.Proofs.Script.Account

/-!
# What can stop a script

A line that does not resolve is reported and stops nothing.  Two kinds of lines are left that do
stop a run: one that counts bars with more digits than an integer may have, and one that asks for a
weighted average over a window whose weights have no sum.  A run of any script comes to its end and
accounts for all statements unless such a line is in its way (`run_returns_or`), and such a line
does stop it (`longWindow_stops`).
-/

namespace Backtest

open Text Backtest.Expr Outcome

variable {α : Type} [Arith α]

/-- An outcome that only an obstacle can stop, and whose result has a property. -/
structure Sources.Ends (sources : Sources α) {β : Type} (P : β → Prop) (outcome : Outcome β) :
    Prop where
  fails : FailsBy sources.Obstacle outcome
  result : ∀ x, outcome = .ok x → P x

/-- A parameter that is no list and, if it is an integer, stands for a number. -/
def Scalar.IsSimple : Scalar α → Prop
  | .int n => ∃ x : α, Scalar.ofInt n = .ok x
  | .list _ => False
  | _ => True

variable {sources : Sources α}

namespace Sources

variable {β γ : Type} {P : β → Prop} {Q : γ → Prop}

theorem ends_ok {x : β} (hx : P x) : sources.Ends P (.ok x) :=
  ⟨failsBy_ok _ _, fun _ hresult => Except.ok.inj hresult ▸ hx⟩

theorem ends_bind {outcome : Outcome β} {next : β → Outcome γ} (hfirst : sources.Ends P outcome)
    (hnext : ∀ x, P x → sources.Ends Q (next x)) : sources.Ends Q (outcome >>= next) := by
  constructor
  · exact failsBy_bind hfirst.fails fun x hx => (hnext x (hfirst.result x hx)).fails
  · intro result hresult
    obtain ⟨x, hx, hlast⟩ := bind_eq_ok.1 hresult
    exact (hnext x (hfirst.result x hx)).result result hlast

/-- What may be nothing has the property if it is something. -/
theorem Sound.ends {found : Outcome (Option β)} (hfound : sources.Sound P found) :
    sources.Ends (fun x => ∀ value, x = some value → P value) found :=
  ⟨hfound.fails, fun _ hx value hvalue => hfound.gives value (hvalue ▸ hx)⟩

end Sources

open Sources

/-! ## The names at the start -/

namespace Environment

variable {env : Environment α}

theorem Plain.put (henv : env.Plain sources) (name : String) {value : Option (Value α)}
    (hvalue : ∀ x, value = some x → x.Plain sources) :
    Environment.Plain sources (Record.put env name value) := forall_value?_put henv name hvalue

theorem Plain.bind (henv : env.Plain sources) (name : String) {value : Value α}
    (hvalue : value.Plain sources) : (env.bind name value).Plain sources :=
  henv.put name fun _ hx => Option.some.inj hx ▸ hvalue

theorem Plain.bindAll (henv : env.Plain sources) (bound : List (String × Series α)) :
    Environment.Plain sources
      (bound.foldl (fun env entry => env.bind entry.1 (.series entry.2)) env) := by
  induction bound generalizing env with
  | nil => exact henv
  | cons entry rest ih => exact ih (henv.bind entry.1 trivial)

theorem plain_ofPrices (prices : Prices α) : (ofPrices prices).Plain sources := by
  apply forall_value?_of_mem
  intro entry hentry value hvalue
  simp only [ofPrices, List.mem_cons, List.not_mem_nil, or_false] at hentry
  rcases hentry with rfl | rfl | rfl | rfl | rfl | rfl | rfl | rfl | rfl | rfl
  all_goals exact Option.some.inj hvalue ▸ trivial

/-- A simple parameter is bound, and a number that it is bound to is known. -/
theorem ofScalar_ends {name : String} {param : Scalar α} (hparam : (name, param) ∈ sources.params)
    (hsimple : param.IsSimple) :
    sources.Ends (fun value => ∀ x, value = some x → x.Plain sources) (Value.ofScalar param) := by
  cases param with
  | int n =>
      obtain ⟨x, hx⟩ := hsimple
      have hvalue : Value.ofScalar (.int n) = .ok (some (.number x)) := by
        rw [Value.ofScalar, hx]
        rfl
      rw [hvalue]
      exact ends_ok fun _ hnumber => Option.some.inj hnumber ▸ .param hparam hvalue
  | real x => exact ends_ok fun _ hnumber => Option.some.inj hnumber ▸ .param hparam rfl
  | flag value => exact ends_ok fun _ hflag => Option.some.inj hflag ▸ trivial
  | text value => exact ends_ok fun _ htext => Option.some.inj htext ▸ trivial
  | missing => exact ends_ok fun _ hnone => absurd hnone (Option.some_ne_none _).symm
  | list items => exact hsimple.elim

theorem withParams_ends {params : Params α} (hparams : params ⊆ sources.params)
    (hsimple : ∀ entry ∈ params, entry.2.IsSimple) (henv : env.Plain sources) :
    sources.Ends (Environment.Plain sources) (withParams env params) := by
  induction params generalizing env with
  | nil => exact ends_ok henv
  | cons entry rest ih =>
      refine ends_bind (ofScalar_ends (hparams List.mem_cons_self)
        (hsimple entry List.mem_cons_self)) fun value hvalue => ?_
      exact ih (fun _ hmem => hparams (List.mem_cons_of_mem _ hmem))
        (fun other hother => hsimple other (List.mem_cons_of_mem _ hother))
        (henv.put entry.1 hvalue)

end Environment

/-! ## Runs -/

namespace Script

namespace Run

variable {run : Run α}

theorem assign_ends (hrun : run.env.Plain sources) (line : Nat) (name : String)
    {expression : Chars} (hmentions : sources.mentions expression) :
    sources.Ends (·.env.Plain sources) (run.assign line name expression) := by
  refine ends_bind (evaluate?_sound hrun hmentions).ends fun found hfound => ?_
  cases found with
  | none => exact ends_ok hrun
  | some value => exact ends_ok (hrun.bind name (hfound value rfl))

theorem destructure_ends (hrun : run.env.Plain sources) (line : Nat) (names : List String)
    (triple : Triple) {arguments : List Chars}
    (hmentions : ∀ text ∈ arguments, sources.mentions text) :
    sources.Ends (·.env.Plain sources) (run.destructure line names triple arguments) := by
  have hfound : sources.Ends (fun _ => True) (evaluateTriple? run.context triple arguments) :=
    ⟨evaluateTriple?_failsBy hrun triple hmentions, fun _ _ => trivial⟩
  refine ends_bind hfound fun found _ => ?_
  cases found with
  | none => exact ends_ok hrun
  | some results => exact ends_ok (hrun.bindAll _)

theorem condition_ends (hrun : run.env.Plain sources) (line : Nat) {text : Chars}
    (hmentions : sources.mentions text) :
    sources.Ends (·.1.env.Plain sources) (run.condition line text) := by
  refine ends_bind (evaluate?_sound hrun hmentions).ends fun found _ => ?_
  split
  · exact ends_ok hrun
  · exact ends_ok hrun

mutual

theorem statement_ends (content : Statement) {run : Run α} (hrun : run.env.Plain sources)
    (hall : content.All (fun _ => sources.mentions) sources.mentions) (guard : Option Guard) :
    sources.Ends (·.env.Plain sources) (statement guard run content) := by
  cases content with
  | signal line kind label => exact ends_ok hrun
  | assign line name expression =>
      rw [statement]
      split
      · exact ends_ok hrun
      · exact assign_ends hrun line name hall
  | destructure line names triple arguments =>
      rw [statement]
      split
      · exact ends_ok hrun
      · exact destructure_ends hrun line names triple hall
  | chain line branches otherwise =>
      rw [statement]
      refine ends_bind (chain_ends branches hrun hall.1 _ _) fun reached hreached => ?_
      obtain ⟨after, taken⟩ := reached
      dsimp only
      split
      · exact ends_ok hreached
      · have hentered (flags : Flags) : (after.register flags).1.env.Plain sources := hreached
        exact block_ends otherwise (hentered _) hall.2 _

theorem block_ends (statements : List Statement) {run : Run α} (hrun : run.env.Plain sources)
    (hall : Statement.AllOf (fun _ => sources.mentions) sources.mentions statements)
    (guard : Option Guard) :
    sources.Ends (·.env.Plain sources) (block guard run statements) := by
  cases statements with
  | nil => exact ends_ok hrun
  | cons first rest =>
      rw [block]
      exact ends_bind (statement_ends first hrun hall.1 guard) fun after hafter =>
        block_ends rest hafter hall.2 guard

theorem chain_ends (branches : List Branch) {run : Run α} (hrun : run.env.Plain sources)
    (hall : Branch.AllOf (fun _ => sources.mentions) sources.mentions branches)
    (parent : Option Flags) (taken : Flags) :
    sources.Ends (·.1.env.Plain sources) (chain parent run taken branches) := by
  cases branches with
  | nil => exact ends_ok hrun
  | cons first others =>
      obtain ⟨line, text, body⟩ := first
      obtain ⟨htext, hbody, hothers⟩ := hall
      rw [chain]
      refine ends_bind (condition_ends hrun line htext) fun tested htested => ?_
      have hentered : (tested.1.register (active parent taken tested.2)).1.env.Plain sources :=
        htested
      refine ends_bind (block_ends body hentered hbody _) fun inner hinner => ?_
      exact chain_ends others hinner hothers parent _

end

end Run

/-- The parameters of a run and the texts of the lines of its script. -/
def sourcesOf (code : Chars) (params : Params α) : Sources α where
  params := params
  mentions text := ∃ line ∈ contentLines code, text <:+: line.text
  part := fun hpart ⟨line, hline, hwhole⟩ => ⟨line, hline, hpart.trans hwhole⟩

theorem run_ends (code : String) (prices : Prices α) {params : Params α}
    (hsimple : ∀ entry ∈ params, entry.2.IsSimple) :
    (sourcesOf code.toList params).Ends (·.env.Plain (sourcesOf code.toList params))
      (Script.run code prices params) := by
  have hstart : (sourcesOf code.toList params).Ends (·.env.Plain (sourcesOf code.toList params))
      (Run.start prices params) :=
    ends_bind (Environment.withParams_ends (List.Subset.refl _) hsimple
      (Environment.plain_ofPrices prices)) fun env henv => ends_ok henv
  exact ends_bind hstart fun start hplain =>
    Run.block_ends _ hplain (all_parse code.toList) none

/-! ## Doubles -/

/-- What can be in the way of a script, with the fault that it leads to. -/
inductive Obstacle (code : Chars) (params : Params Float) : Fault → Prop
  /-- A count of bars in brackets. -/
  | longCount (digits : Chars) (line : Line) (hline : line ∈ contentLines code)
      (hstands : '[' :: (digits ++ [']']) <:+: line.text)
      (hdigits : ∀ c ∈ digits, isDigit c = true)
      (hlong : Decimal.longestInteger < digits.length) :
      Obstacle code params (.integerTooLong digits.length)
  /-- A weighted average, and a number that gives it its window. -/
  | longWindow (x : Float) (length : Nat) (line : Line) (hline : line ∈ contentLines code)
      (hstands : Builtin.weighted.name.toList <:+: line.text)
      (hknown : (sourcesOf code params).Knows x) (hwindow : Scalar.windowLength x = some length)
      (hlong : 2 ^ 511 ≤ length) : Obstacle code params .integerTooLarge

theorem obstacle_of_sources {code : Chars} {params : Params Float} {fault : Fault}
    (hobstacle : (sourcesOf code params).Obstacle fault) : Obstacle code params fault := by
  cases hobstacle with
  | longCount digits hmentions hdigits hlong =>
      obtain ⟨line, hline, hstands⟩ := hmentions
      exact .longCount digits line hline hstands hdigits hlong
  | heavyWindow length hcalled hasks hheavy =>
      obtain ⟨line, hline, hstands⟩ := hcalled
      rcases hasks with rfl | ⟨x, hknown, hwindow⟩
      · have hdefault (bound : Nat) (hbound : 14 ≤ bound) : 14 < 2 ^ bound :=
          Nat.lt_of_le_of_lt hbound Nat.lt_two_pow_self
        exact absurd (Series.weighable_of_lt (hdefault 511 (by decide))) hheavy
      · exact .longWindow x length line hline hstands hknown hwindow
          (Nat.not_lt.1 fun hshort => hheavy (Series.weighable_of_lt hshort))

/-- A run of a script comes to its end and accounts for each statement at the top, unless one of the
obstacles is in its way. -/
theorem run_returns_or (code : String) (prices : Prices Float) (params : Params Float)
    (hsimple : ∀ entry ∈ params, entry.2.IsSimple) :
    (∃ final, Script.run code prices params = .ok final ∧
        Accounts (parse code.toList) prices params final) ∨
      ∃ fault, Obstacle code.toList params fault ∧
        Script.run code prices params = .error fault := by
  have hends := (run_ends code prices hsimple).fails.ok_or_error
  rcases hends with ⟨final, hfinal⟩ | ⟨fault, hfault, hrun⟩
  · exact .inl ⟨final, hfinal, accounts_of_execute hfinal⟩
  · exact .inr ⟨fault, obstacle_of_sources hfault, hrun⟩

/-- A script with an assignment and a condition that do not resolve. -/
def halfScript : String := "half = n / 2\nrest = m / 2\nif \"half\"\n    strategy.close_all()"

/-- Nothing is in the way of this script, and the two lines are reported. -/
theorem run_returns_halfScript :
    ∃ final, Script.run halfScript flatPrices [("n", .int 2)] = .ok final ∧
      Accounts (parse halfScript.toList) flatPrices [("n", .int 2)] final ∧
      final.unresolved = [2, 3] ∧ (final.env.value? "half").isSome = true := by
  have hsimple : ∀ entry ∈ [("n", (Scalar.int 2 : Scalar Float))], entry.2.IsSimple := by
    have hsmall : (2 : Int).natAbs.log2 ≤ 1022 := by decide
    exact List.forall_mem_singleton.2 (Double.exists_ofInt hsmall)
  have hreported : (Script.run halfScript flatPrices [("n", .int 2)]).toOption.map
      (fun final => (final.unresolved, (final.env.value? "half").isSome)) =
        some ([2, 3], true) := by
    decide +kernel
  rcases run_returns_or halfScript flatPrices _ hsimple with
    ⟨final, hfinal, haccounts⟩ | ⟨fault, _, hstopped⟩
  · rw [hfinal] at hreported
    obtain ⟨hunresolved, hbound⟩ := Prod.mk.inj (Option.some.inj hreported)
    exact ⟨final, hfinal, haccounts, hunresolved, hbound⟩
  · rw [hstopped] at hreported
    exact nomatch hreported

/-- The weights of a window of that length have no sum; the line is not reported, but stops the
run. -/
theorem longWindow_stops :
    Script.run "x = ta.wma(close, 1e200)" flatPrices [] = .error .integerTooLarge := by
  have hstopped : Outcome.fault? (Script.run "x = ta.wma(close, 1e200)" flatPrices []) =
      some .integerTooLarge := by
    decide +kernel
  exact Outcome.fault?_eq_some.1 hstopped

end Script

end Backtest
