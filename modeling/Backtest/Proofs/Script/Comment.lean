import Backtest.Proofs.Report
import Backtest.Proofs.Text.Line

/-!
# Comments

A script without its comments has the same statements: stripping a line commutes with widening its
tabs, and what is left of a line has no comment (`parse_withoutComments`).  Input declarations are
read from the whole text, comments included.  So a backtest sees comments through the defaults that
it takes from such declarations, and through nothing else (`comments_act_through_defaults`); a
declaration in a comment does give a default (`default_declared_in_comment`).
-/

namespace Backtest.Script

open Text

/-- A script with each line replaced by the line without its comment. -/
def withoutComments (code : Chars) : Chars :=
  (lines code).flatMap fun line => stripComment line ++ ['\n']

/-! ## The text before a comment -/

/-- The quote that a text stands in, if it stands in one. -/
def IsMark (quote : Option Char) : Prop := ∀ mark, quote = some mark → isQuote mark = true

theorem isMark_none : IsMark none := nofun

theorem isMark_some {c : Char} (hc : isQuote c = true) : IsMark (some c) := by
  intro mark hmark
  injection hmark with hmark
  rw [← hmark]
  exact hc

theorem IsMark.next {mark : Char} (hmark : IsMark (some mark)) (c : Char) :
    IsMark (if c = mark then none else some mark) := by
  split
  · exact isMark_none
  · exact hmark

theorem beforeComment_isPrefix (quote : Option Char) (text : Chars) :
    beforeComment quote text <+: text := by
  fun_induction beforeComment quote text with
  | case1 quote => exact List.prefix_rfl
  | case2 c rest mark ih => exact (List.cons_prefix_cons).2 ⟨rfl, ih⟩
  | case3 c rest hquote ih => exact (List.cons_prefix_cons).2 ⟨rfl, ih⟩
  | case4 c rest hquote hslash => exact List.nil_prefix
  | case5 c rest hquote hslash ih => exact (List.cons_prefix_cons).2 ⟨rfl, ih⟩

/-- No comment begins in a part of the text before a comment. -/
theorem beforeComment_of_isPrefix {quote : Option Char} {front text : Chars}
    (hfront : front <+: beforeComment quote text) : beforeComment quote front = front := by
  fun_induction beforeComment quote text generalizing front with
  | case1 quote => rw [List.prefix_nil.1 hfront, beforeComment]
  | case2 c rest mark ih =>
      cases front with
      | nil => rw [beforeComment]
      | cons d front =>
          obtain ⟨rfl, hrest⟩ := List.cons_prefix_cons.1 hfront
          rw [beforeComment, ih hrest]
  | case3 c rest hquote ih =>
      cases front with
      | nil => rw [beforeComment]
      | cons d front =>
          obtain ⟨rfl, hrest⟩ := List.cons_prefix_cons.1 hfront
          rw [beforeComment, if_pos hquote, ih hrest]
  | case4 c rest hquote hslash => rw [List.prefix_nil.1 hfront, beforeComment]
  | case5 c rest hquote hslash ih =>
      cases front with
      | nil => rw [beforeComment]
      | cons d front =>
          obtain ⟨rfl, hrest⟩ := List.cons_prefix_cons.1 hfront
          -- A second slash in the part would be one in the text.
          have hlater : ¬ (d == '/' && front.head? == some '/') = true := by
            intro hboth
            apply hslash
            obtain ⟨back, hback⟩ := hrest.trans (beforeComment_isPrefix none rest)
            cases front with
            | nil => exact absurd hboth (by simp)
            | cons e front =>
                rw [← hback]
                exact hboth
          rw [beforeComment, if_neg hquote, if_neg hlater, ih hrest]

theorem beforeComment_plain {quote : Option Char} (hmark : IsMark quote) {c : Char}
    (hquote : isQuote c = false) (hslash : c ≠ '/') (rest : Chars) :
    beforeComment quote (c :: rest) = c :: beforeComment quote rest := by
  cases quote with
  | none =>
      rw [beforeComment, hquote, if_neg Bool.false_ne_true, if_neg]
      rw [beq_false_of_ne hslash, Bool.false_and]
      exact Bool.false_ne_true
  | some mark =>
      have hne : c ≠ mark := by
        rintro rfl
        exact absurd (hmark c rfl) (by rw [hquote]; exact Bool.false_ne_true)
      rw [beforeComment, if_neg hne]

theorem beforeComment_replicate {quote : Option Char} (hmark : IsMark quote) (count : Nat)
    (rest : Chars) : beforeComment quote (List.replicate count ' ' ++ rest) =
      List.replicate count ' ' ++ beforeComment quote rest := by
  induction count with
  | zero => rfl
  | succ count ih =>
      rw [List.replicate_succ, List.cons_append,
        beforeComment_plain hmark (by decide) (by decide), ih, List.cons_append]

/-! ## Tabs and comments -/

theorem head?_widenTabsFrom (column : Nat) (text : Chars) :
    (widenTabsFrom column text).head? = some '/' ↔ text.head? = some '/' := by
  cases text with
  | nil => exact Iff.rfl
  | cons c rest =>
      by_cases htab : c = '\t'
      · obtain ⟨count, hcount⟩ : ∃ count, 4 - column % 4 = count + 1 :=
          ⟨3 - column % 4, by omega⟩
        rw [htab, widenTabsFrom_tab, hcount, List.replicate_succ]
        simp
      · rw [widenTabsFrom_cons _ htab]
        rfl

/-- Widening tabs neither opens nor closes a comment. -/
theorem beforeComment_widenTabsFrom {quote : Option Char} (hmark : IsMark quote) (column : Nat)
    (text : Chars) : beforeComment quote (widenTabsFrom column text) =
      widenTabsFrom column (beforeComment quote text) := by
  induction text generalizing quote column with
  | nil => rw [widenTabsFrom, beforeComment, widenTabsFrom]
  | cons c rest ih =>
      by_cases htab : c = '\t'
      · rw [htab, widenTabsFrom_tab, beforeComment_replicate hmark, ih hmark,
          beforeComment_plain hmark (by decide) (by decide), widenTabsFrom_tab]
      · rw [widenTabsFrom_cons _ htab]
        cases quote with
        | some mark =>
            rw [beforeComment, beforeComment, widenTabsFrom_cons _ htab, ih (hmark.next c)]
        | none =>
            rw [beforeComment, beforeComment]
            by_cases hquote : isQuote c = true
            · rw [if_pos hquote, if_pos hquote, widenTabsFrom_cons _ htab, ih (isMark_some hquote)]
            · have hhead : (widenTabsFrom (columnAfter column c) rest).head? == some '/' ↔
                  rest.head? == some '/' := by
                rw [beq_iff_eq, beq_iff_eq, head?_widenTabsFrom]
              rw [if_neg hquote, if_neg hquote, Bool.eq_iff_iff.2 hhead]
              split
              · rw [widenTabsFrom]
              · rw [widenTabsFrom_cons _ htab, ih isMark_none]

/-- A line that is stripped of its comment once more, after its tabs are widened, is as if it had
been stripped only then. -/
theorem stripComment_widenTabs_stripComment (text : Chars) :
    stripComment (widenTabs (stripComment text)) = stripComment (widenTabs text) := by
  have hplain : beforeComment none (stripComment text) = stripComment text :=
    beforeComment_of_isPrefix (trimRight_isPrefix _)
  calc stripComment (widenTabs (stripComment text))
      = trimRight (widenTabs (beforeComment none (stripComment text))) := by
        rw [stripComment, widenTabs, beforeComment_widenTabsFrom isMark_none, widenTabs]
    _ = trimRight (widenTabs (trimRight (beforeComment none text))) := by
        rw [hplain, stripComment]
    _ = trimRight (widenTabs (beforeComment none text)) := trimRight_widenTabs_trimRight _
    _ = stripComment (widenTabs text) := by
        rw [stripComment, widenTabs, widenTabs, beforeComment_widenTabsFrom isMark_none]

/-! ## Statements -/

theorem ofText?_stripComment (number : Nat) (raw : Chars) :
    Line.ofText? number (stripComment raw) = Line.ofText? number raw := by
  rw [Line.ofText?, Line.ofText?, stripComment_widenTabs_stripComment]

theorem lines_withoutComments (code : Chars) :
    lines (withoutComments code) = (lines code).map stripComment := by
  have hlines : ∀ text ∈ (lines code).map stripComment, OneLine text := by
    intro text htext
    obtain ⟨line, hline, rfl⟩ := List.mem_map.1 htext
    have hfront : stripComment line <+: line :=
      (trimRight_isPrefix _).trans (beforeComment_isPrefix none line)
    exact fun c hc => oneLine_of_mem_lines hline c (hfront.subset hc)
  rw [← lines_flatMap_lineFeed hlines, List.flatMap_map, withoutComments]

theorem contentLines_withoutComments (code : Chars) :
    contentLines (withoutComments code) = contentLines code := by
  simp only [contentLines, lines_withoutComments, List.zipIdx_map, List.filterMap_map,
    Function.comp_def, Prod.map_fst, Prod.map_snd, id, ofText?_stripComment]

/-- Comments are no part of the statements of a script. -/
theorem parse_withoutComments (code : Chars) : parse (withoutComments code) = parse code := by
  rw [parse, contentLines_withoutComments, parse]

/-! ## Backtests -/

variable {α : Type} [Arith α]

/-- The text of a script with each line replaced by the line without its comment. -/
def bare (code : String) : String := String.ofList (withoutComments code.toList)

/-- The parameters that a backtest of a script uses. -/
def used (code : String) (params : Params α) : Params α :=
  Record.overlay (Input.scriptDefaults code.toList) params

theorem params_of_backtestScript {bars : List (Bar α)} {code : String} {params : Params α}
    {asset : Option (Asset α)} {report : Report α}
    (hreport : backtestScript bars code params asset = .ok report) :
    report.params = used code params := by
  obtain ⟨prices, _, hreport⟩ := Outcome.bind_eq_ok.1 hreport
  rw [Report.params_of_ofStatements hreport, used]

theorem backtestScript_bare {code : String} {params : Params α}
    (hused : used (bare code) params = used code params) (bars : List (Bar α))
    (asset : Option (Asset α)) :
    backtestScript bars (bare code) params asset = backtestScript bars code params asset := by
  rw [used, used] at hused
  rw [backtestScript, hused, bare, String.toList_ofList, parse_withoutComments, backtestScript]

/-- A backtest sees the comments of a script only through the defaults of its input declarations:
without them it fails in the same way or gives the same report, if and only if it uses the same
parameters. -/
theorem comments_act_through_defaults (bars : List (Bar α)) (code : String) (params : Params α)
    (asset : Option (Asset α)) :
    parse (bare code).toList = parse code.toList ∧
      (used (bare code) params = used code params →
        backtestScript bars (bare code) params asset = backtestScript bars code params asset) ∧
      ∀ report, backtestScript bars code params asset = .ok report →
        (backtestScript bars (bare code) params asset = .ok report ↔
          used (bare code) params = used code params) := by
  refine ⟨?_, fun hused => backtestScript_bare hused bars asset, fun report hreport => ?_⟩
  · rw [bare, String.toList_ofList, parse_withoutComments]
  · constructor
    · intro hbare
      rw [← params_of_backtestScript hbare, params_of_backtestScript hreport]
    · intro hused
      rw [backtestScript_bare hused, hreport]

/-- A script whose only input is declared in a comment. -/
def commentedInput : String :=
  "// limit = input.float(1)\nif close > limit\n    strategy.entry(\"L\", strategy.long)"

/-- The names of the parameters that a run over the three bars uses, and how often it trades. -/
def outline (code : String) : Option (List String × Nat) :=
  (backtestScript threeBars code [] none).toOption.map fun report =>
    (report.params.map (·.1), report.trades.length)

/-- The declaration in the comment gives the parameter that the script trades by. -/
theorem default_declared_in_comment :
    outline commentedInput = some (["limit"], 1) ∧ outline (bare commentedInput) = some ([], 0) ∧
      backtestScript threeBars (bare commentedInput) [] none ≠
        backtestScript threeBars commentedInput [] none := by
  have hwith : outline commentedInput = some (["limit"], 1) := by decide +kernel
  have hwithout : outline (bare commentedInput) = some ([], 0) := by decide +kernel
  refine ⟨hwith, hwithout, fun heq => ?_⟩
  have hsame : outline (bare commentedInput) = outline commentedInput := by
    rw [outline, heq, outline]
  rw [hwith, hwithout] at hsame
  exact absurd hsame (by decide)

end Backtest.Script
