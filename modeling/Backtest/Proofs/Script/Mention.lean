import Backtest.Proofs.Script.Comment
import Backtest.Proofs.Script.Lookup

/-!
# Parameters that a script does not mention

A script backtest cannot see a parameter whose name stands nowhere in the text.  Two maps of
parameters that give the same values to all names within the text, and to the three prices that some
calls fall back to, lead to the same record of the run and to the same trades, equity, metrics and
months (`script_ignores_unmentioned`).

The names that a run asks for stand in the lines that it reads, which have their tabs widened and
their comments dropped.  A name has no white space, so it stands in the text of the script as well.
-/

namespace Backtest

open Text Backtest.Expr

/-! ## Names within a script -/

namespace Script

/-- A text stands in a line of a script. -/
def MentionsText (code text : Chars) : Prop := ∃ line ∈ contentLines code, text <:+: line.text

theorem MentionsText.part {code text whole : Chars} (hpart : text <:+: whole)
    (hwhole : MentionsText code whole) : MentionsText code text := by
  obtain ⟨line, hline, hstands⟩ := hwhole
  exact ⟨line, hline, hpart.trans hstands⟩

/-- The parts of the lines of a script. -/
def scopeOf (code : Chars) : Scope := ⟨MentionsText code, MentionsText.part⟩

/-- A text without white space that stands in a line of a script stands in the script. -/
theorem infix_of_infix_line {code part : Chars} (hpart : ∀ c ∈ part, isBlank c = false)
    {line : Line} (hline : line ∈ contentLines code) (hstands : part <:+: line.text) :
    part <:+: code := by
  obtain ⟨⟨raw, number⟩, hraw, hread⟩ := List.mem_filterMap.1 hline
  rw [Line.ofText?] at hread
  dsimp only at hread
  split at hread
  · cases hread
  · injection hread with hread
    have hshown : part <:+: stripComment (widenTabs raw) := by
      rw [← hread] at hstands
      exact hstands.trans (trim_isInfix _)
    have hfront : stripComment (widenTabs raw) <+: widenTabs raw :=
      (trimRight_isPrefix _).trans (beforeComment_isPrefix none _)
    have hinner := infix_of_infix_widenTabsFrom hpart (hshown.trans hfront.isInfix)
    exact hinner.trans (infix_of_mem_lines (List.fst_mem_of_mem_zipIdx hraw))

theorem infix_of_isIdentifier {code : Chars} {name : String}
    (hname : isIdentifier name.toList = true) (hmentions : (scopeOf code).mentions name.toList) :
    name.toList <:+: code := by
  obtain ⟨line, hline, hstands⟩ := hmentions
  refine infix_of_infix_line (fun c hc => ?_) hline hstands
  exact not_isBlank_of_isCallChar (isCallChar_of_isWord (isWord_of_isIdentifier hname c hc))

end Script

/-! ## Parameters that agree on them -/

variable {α : Type} [Arith α]

/-- Parameters under distinct identifiers. -/
structure Keyed (params : Params α) : Prop where
  distinct : Record.Distinct params
  identifier : ∀ entry ∈ params, isIdentifier entry.1.toList = true

/-- Two maps of parameters give the same value, or none, to each name that stands in a text and to
the prices. -/
def AgreeOnMentioned (code : String) (params others : Params α) : Prop :=
  ∀ name : String, name.toList <:+: code.toList ∨ name ∈ Scope.prices →
    Record.get? params name = Record.get? others name

variable {code : String} {params others : Params α}

omit [Arith α] in
theorem Keyed.get?_eq_none (hparams : Keyed params) {name : String}
    (hname : isIdentifier name.toList = false) : Record.get? params name = none := by
  cases hparam : Record.get? params name with
  | none => rfl
  | some param =>
      have hkey := hparams.identifier _ (Record.mem_of_get? hparam)
      rw [hname] at hkey
      exact nomatch hkey

omit [Arith α] in
/-- What a run of a script sees of its parameters is what they give the names in its text. -/
theorem AgreeOnMentioned.get?_eq (hagree : AgreeOnMentioned code params others)
    (hparams : Keyed params) (hothers : Keyed others) {name : String}
    (hsees : (Script.scopeOf code.toList).Sees name.toList) :
    Record.get? params name = Record.get? others name := by
  cases hname : isIdentifier name.toList with
  | false => rw [hparams.get?_eq_none hname, hothers.get?_eq_none hname]
  | true =>
      apply hagree
      rcases hsees with hmentions | ⟨price, hprice, hsame⟩
      · exact .inl (Script.infix_of_isIdentifier hname hmentions)
      · rw [String.toList_inj.1 hsame]
        exact .inr hprice

/-! ## Runs and backtests -/

/-- Two runs record the same signals under the same conditions and report the same lines. -/
structure Script.Run.SameRecord (run other : Run α) : Prop where
  signals : run.signals = other.signals
  conditions : run.conditions = other.conditions
  unresolved : run.unresolved = other.unresolved
  skipped : run.skipped = other.skipped

/-- Two reports tell the same apart from the parameters that they show. -/
structure Report.SameTrading (report other : Report α) : Prop where
  trades : report.trades = other.trades
  equity : report.equity = other.equity
  metrics : report.metrics = other.metrics
  monthly : report.monthly = other.monthly

omit [Arith α] in
theorem Script.Run.Agree.sameRecord {scope : Scope} {run other : Run α}
    (hagree : run.Agree scope other) : run.SameRecord other := by
  obtain ⟨env, _, rfl⟩ := hagree
  exact ⟨rfl, rfl, rfl, rfl⟩

/-- Two runs of a script that both reach their end are in the same state there, if their parameters
are the same as far as the script sees them. -/
theorem Script.agree_of_execute {prices : Prices α} {run other : Run α}
    (hparams : Record.Distinct params) (hothers : Record.Distinct others)
    (hsame : ∀ name : String, (scopeOf code.toList).Sees name.toList →
      Record.get? params name = Record.get? others name)
    (hrun : execute (parse code.toList) prices params = .ok run)
    (hother : execute (parse code.toList) prices others = .ok other) :
    run.Agree (scopeOf code.toList) other := by
  obtain ⟨first, hfirst, _⟩ := Outcome.bind_eq_ok.1 hrun
  obtain ⟨second, hsecond, _⟩ := Outcome.bind_eq_ok.1 hother
  obtain ⟨env, henv, _⟩ := Outcome.bind_eq_ok.1 hfirst
  obtain ⟨env', henv', _⟩ := Outcome.bind_eq_ok.1 hsecond
  have hstart : Outcome.Alike (Environment.Agree (scopeOf code.toList))
      (Environment.start prices params) (Environment.start prices others) := by
    rw [henv, henv']
    exact .ok (Environment.agree_withParams hparams hothers hsame henv henv')
  obtain ⟨reached, hreached, hagree⟩ :=
    (execute_alike_of_start (all_parse code.toList) prices hstart).exists_ok hrun
  rw [hother] at hreached
  injection hreached with hreached
  exact hreached ▸ hagree

omit [Arith α] in
/-- Parameters over the defaults of a script agree where the parameters do. -/
theorem AgreeOnMentioned.get?_overlay_eq (hagree : AgreeOnMentioned code params others)
    (hparams : Keyed params) (hothers : Keyed others) (defaults : Params α) {name : String}
    (hsees : (Script.scopeOf code.toList).Sees name.toList) :
    (Record.overlay defaults params).get? name = (Record.overlay defaults others).get? name := by
  rw [Record.get?_overlay hparams.distinct, Record.get?_overlay hothers.distinct,
    hagree.get?_eq hparams hothers hsees]

/-- The same signals are traded alike, whatever parameters the report shows. -/
theorem Report.ofSignals_sameTrading (prices : Prices α) (signals : List (SignalKind × Flags))
    (fromFlat : Bool) (params others : Params α) (asset : Option (Asset α)) :
    Outcome.Alike SameTrading (ofSignals prices signals fromFlat params asset)
      (ofSignals prices signals fromFlat others asset) := by
  refine Outcome.alike_bind_eq rfl fun simulated => ?_
  refine Outcome.alike_bind_eq rfl fun metrics => ?_
  exact Outcome.alike_bind_eq rfl fun monthly => .ok ⟨rfl, rfl, rfl, rfl⟩

/-- A parameter that a script does not mention has no influence on its run or its backtest. -/
theorem script_ignores_unmentioned (code : String) {params others : Params α}
    (hparams : Keyed params) (hothers : Keyed others)
    (hagree : AgreeOnMentioned code params others) :
    (∀ prices run other, Script.run code prices params = .ok run →
        Script.run code prices others = .ok other → run.SameRecord other) ∧
      ∀ bars asset report other, backtestScript bars code params asset = .ok report →
        backtestScript bars code others asset = .ok other → report.SameTrading other := by
  constructor
  · intro prices run other hrun hother
    have hstates := Script.agree_of_execute hparams.distinct hothers.distinct
      (fun name => hagree.get?_eq hparams hothers) hrun hother
    exact hstates.sameRecord
  · intro bars asset report other hreport hother
    obtain ⟨prices, hprices, hreport⟩ := Outcome.bind_eq_ok.1 hreport
    obtain ⟨others', hothers', hother⟩ := Outcome.bind_eq_ok.1 hother
    rw [hprices] at hothers'
    injection hothers' with hothers'
    subst hothers'
    obtain ⟨run, hrun, hreport⟩ := Outcome.bind_eq_ok.1 hreport
    obtain ⟨after, hafter, hother⟩ := Outcome.bind_eq_ok.1 hother
    have hdefaults := Record.distinct_ofEntries
      (((Input.params code.toList).filter fun param => param.kind ≠ .source).map
        fun param : Input.Param α => (param.name, param.default))
    obtain ⟨env, _, rfl⟩ := Script.agree_of_execute (hdefaults.overlay params)
      (hdefaults.overlay others) (fun name => hagree.get?_overlay_eq hparams hothers _) hrun hafter
    obtain ⟨traded, htraded, hsame⟩ :=
      (Report.ofSignals_sameTrading prices run.activations false _ _ asset).exists_ok hreport
    injection htraded.symm.trans hother with hsecond
    exact hsecond ▸ hsame

/-- A script that goes long while the close is above a limit. -/
def limitScript : String := "if close > limit\n    strategy.entry(\"Long\", strategy.long)"

/-- One run is given a gap that the script does not mention, the other one another gap and a flag;
both trade once. -/
theorem script_ignores_unmentioned_gap :
    ∃ report other,
      backtestScript threeBars limitScript [("limit", .int 1), ("gap", .int 5)] none = .ok report ∧
      backtestScript threeBars limitScript
        [("gap", .int 7), ("spare", .flag true), ("limit", .int 1)] none = .ok other ∧
      report.trades.length = 1 ∧ report.SameTrading other := by
  let params : Params Exact := [("limit", .int 1), ("gap", .int 5)]
  let others : Params Exact := [("gap", .int 7), ("spare", .flag true), ("limit", .int 1)]
  have hparams : Keyed params :=
    ⟨by simp [params, Record.Distinct, Record.names], by decide +kernel⟩
  have hothers : Keyed others :=
    ⟨by simp [others, Record.Distinct, Record.names], by decide +kernel⟩
  have hagree : AgreeOnMentioned limitScript params others := by
    have hunseen : ∀ name ∈ ["gap", "spare"],
        ¬ (name.toList <:+: limitScript.toList ∨ name ∈ Scope.prices) := by decide +kernel
    intro name hseen
    have hgap : "gap" ≠ name := fun heq => hunseen _ (by decide) (heq ▸ hseen)
    have hspare : "spare" ≠ name := fun heq => hunseen _ (by decide) (heq ▸ hseen)
    simp [params, others, Record.get?, hgap, hspare]
  have hcount : (backtestScript threeBars limitScript params none).toOption.map
      (·.trades.length) = some 1 := by
    decide +kernel
  have hsecond : Outcome.fault? (backtestScript threeBars limitScript others none) = none := by
    decide +kernel
  obtain ⟨report, hreport, hlength⟩ := Option.map_eq_some_iff.1 hcount
  obtain ⟨other, hother⟩ := Outcome.fault?_eq_none.1 hsecond
  have hreport := Outcome.toOption_eq_some.1 hreport
  exact ⟨report, other, hreport, hother, hlength,
    (script_ignores_unmentioned limitScript hparams hothers hagree).2 _ _ _ _ hreport hother⟩

end Backtest
