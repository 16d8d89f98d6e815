import Backtest.Proofs.Text.Blank
import Backtest.Text.Line

/-!
# Cutting and joining lines

Lines hold no line ends, so that lines written with a line feed after each are read back one by one.
Widening tabs turns white space into white space, and trimming does not see white space that stands
at the end of a text.
-/

namespace Backtest.Text

/-! ## Lines -/

/-- A text without line ends. -/
def OneLine (text : Chars) : Prop := ∀ c ∈ text, isLineEnd c = false

theorem oneLine_nil : OneLine [] := fun _ hc => absurd hc List.not_mem_nil

theorem linesFrom_cons (line rest : Chars) {c : Char} (hc : c ≠ '\r') :
    linesFrom line (c :: rest) =
      if isLineEnd c then line.reverse :: linesFrom [] rest else linesFrom (c :: line) rest := by
  rw [linesFrom]
  intro later hreturn
  exact absurd hreturn hc

theorem ne_return_of_not_isLineEnd {c : Char} (hc : isLineEnd c = false) : c ≠ '\r' := by
  rintro rfl
  exact absurd hc (by decide)

theorem linesFrom_lineFeed {text : Chars} (htext : OneLine text) (line rest : Chars) :
    linesFrom line (text ++ '\n' :: rest) = (line.reverse ++ text) :: linesFrom [] rest := by
  induction text generalizing line with
  | nil =>
      rw [List.nil_append, List.append_nil, linesFrom_cons line rest (by decide),
        if_pos (by decide)]
  | cons c text ih =>
      have hc := htext c List.mem_cons_self
      rw [List.cons_append, linesFrom_cons line _ (ne_return_of_not_isLineEnd hc), hc,
        if_neg Bool.false_ne_true,
        ih fun other hother => htext other (List.mem_cons_of_mem _ hother),
        List.reverse_cons, List.append_assoc, List.singleton_append]

theorem oneLine_of_mem_linesFrom {line text : Chars} (hopen : OneLine line) {other : Chars}
    (hother : other ∈ linesFrom line text) : OneLine other := by
  have hreverse {line : Chars} (hline : OneLine line) : OneLine line.reverse :=
    fun c hc => hline c (List.mem_reverse.1 hc)
  fun_induction linesFrom line text with
  | case1 line hempty => exact absurd hother List.not_mem_nil
  | case2 line hempty =>
      rw [List.mem_singleton.1 hother]
      exact hreverse hopen
  | case3 line rest ih =>
      rcases List.mem_cons.1 hother with heq | hmem
      · rw [heq]
        exact hreverse hopen
      · exact ih oneLine_nil hmem
  | case4 line c rest _ hend ih =>
      rcases List.mem_cons.1 hother with heq | hmem
      · rw [heq]
        exact hreverse hopen
      · exact ih oneLine_nil hmem
  | case5 line c rest _ hend ih =>
      refine ih (fun d hd => ?_) hother
      rcases List.mem_cons.1 hd with heq | hmem
      · rw [heq]
        exact Bool.eq_false_iff.2 hend
      · exact hopen d hmem

/-- The lines of a text have no line ends. -/
theorem oneLine_of_mem_lines {text line : Chars} (hline : line ∈ lines text) : OneLine line :=
  oneLine_of_mem_linesFrom oneLine_nil hline

/-- A text without line ends is its only line. -/
theorem lines_oneLine {text : Chars} (htext : OneLine text) (hne : text ≠ []) :
    lines text = [text] := by
  have hopen : ∀ line, linesFrom line text =
      if (line.reverse ++ text).isEmpty then [] else [line.reverse ++ text] := by
    clear hne
    induction text with
    | nil =>
        intro line
        rw [linesFrom, List.append_nil, List.isEmpty_reverse]
    | cons c rest ih =>
        intro line
        have hc := htext c List.mem_cons_self
        rw [linesFrom_cons line rest (ne_return_of_not_isLineEnd hc), hc,
          if_neg Bool.false_ne_true, ih fun d hd => htext d (List.mem_cons_of_mem c hd),
          List.reverse_cons, List.append_assoc, List.singleton_append]
  rw [lines, hopen, List.reverse_nil, List.nil_append, List.isEmpty_eq_false_iff.2 hne,
    if_neg Bool.false_ne_true]

/-- Lines with a line feed after each are read back. -/
theorem lines_flatMap_lineFeed {texts : List Chars} (htexts : ∀ text ∈ texts, OneLine text) :
    lines (texts.flatMap fun text => text ++ ['\n']) = texts := by
  induction texts with
  | nil => rfl
  | cons text texts ih =>
      have hrest := ih fun other hother => htexts other (List.mem_cons_of_mem _ hother)
      rw [lines] at hrest ⊢
      rw [List.flatMap_cons, List.append_assoc, List.singleton_append,
        linesFrom_lineFeed (htexts text List.mem_cons_self), List.reverse_nil, List.nil_append,
        hrest]

/-! ## Tabs -/

/-- The column behind a character that is no tab. -/
def columnAfter (column : Nat) (c : Char) : Nat := if c = '\n' ∨ c = '\r' then 0 else column + 1

theorem widenTabsFrom_tab (column : Nat) (rest : Chars) :
    widenTabsFrom column ('\t' :: rest) = List.replicate (4 - column % 4) ' ' ++
      widenTabsFrom (column + (4 - column % 4)) rest := by
  rw [widenTabsFrom, if_pos rfl]

theorem widenTabsFrom_cons (column : Nat) {c : Char} (hc : c ≠ '\t') (rest : Chars) :
    widenTabsFrom column (c :: rest) = c :: widenTabsFrom (columnAfter column c) rest := by
  rw [widenTabsFrom, if_neg hc, columnAfter]
  split <;> rfl

/-- Widening takes a text one part after the other; the second part starts at the column where the
first one ends. -/
theorem widenTabsFrom_append (column : Nat) (front back : Chars) :
    ∃ later, widenTabsFrom column (front ++ back) =
      widenTabsFrom column front ++ widenTabsFrom later back := by
  induction front generalizing column with
  | nil => exact ⟨column, rfl⟩
  | cons c rest ih =>
      by_cases htab : c = '\t'
      · obtain ⟨later, hlater⟩ := ih (column + (4 - column % 4))
        refine ⟨later, ?_⟩
        rw [htab, List.cons_append, widenTabsFrom_tab, widenTabsFrom_tab, hlater, List.append_assoc]
      · obtain ⟨later, hlater⟩ := ih (columnAfter column c)
        refine ⟨later, ?_⟩
        rw [List.cons_append, widenTabsFrom_cons _ htab, widenTabsFrom_cons _ htab, hlater,
          List.cons_append]

theorem isBlank_of_mem_widenTabsFrom {column : Nat} {text : Chars}
    (htext : ∀ c ∈ text, isBlank c = true) {c : Char} (hc : c ∈ widenTabsFrom column text) :
    isBlank c = true := by
  induction text generalizing column with
  | nil => exact absurd hc List.not_mem_nil
  | cons first rest ih =>
      have hrest : ∀ d ∈ rest, isBlank d = true :=
        fun d hd => htext d (List.mem_cons_of_mem _ hd)
      by_cases htab : first = '\t'
      · rw [htab, widenTabsFrom_tab] at hc
        rcases List.mem_append.1 hc with hspace | hlater
        · rw [List.eq_of_mem_replicate hspace]
          decide
        · exact ih hrest hlater
      · rw [widenTabsFrom_cons _ htab] at hc
        rcases List.mem_cons.1 hc with heq | hlater
        · rw [heq]
          exact htext first List.mem_cons_self
        · exact ih hrest hlater

/-! ## What stands in a line -/

theorem infix_of_mem_linesFrom {line text other : Chars} (hother : other ∈ linesFrom line text) :
    other <:+: line.reverse ++ text := by
  fun_induction linesFrom line text with
  | case1 line hempty => exact absurd hother List.not_mem_nil
  | case2 line hempty =>
      rw [List.mem_singleton.1 hother]
      exact (List.prefix_append line.reverse []).isInfix
  | case3 line rest ih =>
      rcases List.mem_cons.1 hother with heq | hmem
      · rw [heq]
        exact (List.prefix_append line.reverse _).isInfix
      · have hrest := (List.suffix_cons '\n' rest).trans (List.suffix_cons '\r' _)
        exact (ih hmem).trans (hrest.trans (List.suffix_append _ _)).isInfix
  | case4 line c rest _ hend ih =>
      rcases List.mem_cons.1 hother with heq | hmem
      · rw [heq]
        exact (List.prefix_append line.reverse _).isInfix
      · exact (ih hmem).trans ((List.suffix_cons c rest).trans (List.suffix_append _ _)).isInfix
  | case5 line c rest _ hend ih =>
      have hlater := ih hother
      rwa [List.reverse_cons, List.append_assoc, List.singleton_append] at hlater

/-- A line stands in its text. -/
theorem infix_of_mem_lines {text line : Chars} (hline : line ∈ lines text) : line <:+: text :=
  infix_of_mem_linesFrom hline

section Unblanked

variable {part text : Chars} (hpart : ∀ c ∈ part, isBlank c = false)

include hpart

theorem prefix_of_prefix_widenTabsFrom {column : Nat}
    (hfront : part <+: widenTabsFrom column text) : part <+: text := by
  induction text generalizing part column with
  | nil => exact hfront
  | cons c rest ih =>
      cases part with
      | nil => exact List.nil_prefix
      | cons first others =>
          by_cases htab : c = '\t'
          · -- The widened text begins with a blank, and `first` is none.
            obtain ⟨count, hcount⟩ : ∃ count, 4 - column % 4 = count + 1 :=
              Nat.exists_eq_add_one.2 (by omega)
            rw [htab, widenTabsFrom_tab, hcount, List.replicate_succ, List.cons_append,
              List.cons_prefix_cons] at hfront
            have hfirst := hpart first List.mem_cons_self
            rw [hfront.1] at hfirst
            exact absurd hfirst (by decide)
          · rw [widenTabsFrom_cons _ htab, List.cons_prefix_cons] at hfront
            have hothers := ih (fun d hd => hpart d (List.mem_cons_of_mem _ hd)) hfront.2
            exact List.cons_prefix_cons.2 ⟨hfront.1, hothers⟩

theorem infix_of_infix_replicate {count : Nat}
    (hwithin : part <:+: List.replicate count ' ' ++ text) : part <:+: text := by
  induction count with
  | zero => exact hwithin
  | succ count ih =>
      rw [List.replicate_succ, List.cons_append, List.infix_cons_iff] at hwithin
      rcases hwithin with hfront | hlater
      · cases part with
        | nil => exact List.nil_infix
        | cons first others =>
            have hfirst := hpart first List.mem_cons_self
            rw [(List.cons_prefix_cons.1 hfront).1] at hfirst
            exact absurd hfirst (by decide)
      · exact ih hlater

/-- Widening tabs adds only white space, so it brings no new text without white space about. -/
theorem infix_of_infix_widenTabsFrom {column : Nat}
    (hwithin : part <:+: widenTabsFrom column text) : part <:+: text := by
  induction text generalizing column with
  | nil => exact hwithin
  | cons c rest ih =>
      by_cases htab : c = '\t'
      · rw [htab, widenTabsFrom_tab] at hwithin
        have hlater := ih (infix_of_infix_replicate hpart hwithin)
        exact hlater.trans (List.suffix_cons c rest).isInfix
      · rw [widenTabsFrom_cons _ htab, List.infix_cons_iff] at hwithin
        rcases hwithin with hfront | hlater
        · have hwhole : part <+: widenTabsFrom column (c :: rest) := by
            rwa [widenTabsFrom_cons _ htab]
          exact (prefix_of_prefix_widenTabsFrom hpart hwhole).isInfix
        · exact (ih hlater).trans (List.suffix_cons c rest).isInfix

end Unblanked

/-! ## White space at the end -/

theorem trimRight_append_blank {back : Chars} (hback : ∀ c ∈ back, isBlank c = true)
    (text : Chars) : trimRight (text ++ back) = trimRight text := by
  rw [trimRight, List.reverse_append,
    List.dropWhile_append_of_pos fun c hc => hback c (List.mem_reverse.1 hc), trimRight]

/-- A text is what trimming leaves of its end and white space behind it. -/
theorem exists_trimRight_append (text : Chars) :
    ∃ back, (∀ c ∈ back, isBlank c = true) ∧ text = trimRight text ++ back := by
  refine ⟨(text.reverse.takeWhile isBlank).reverse, ?_, ?_⟩
  · intro c hc
    exact List.all_eq_true.1 List.all_takeWhile c (List.mem_reverse.1 hc)
  · rw [trimRight, ← List.reverse_append, List.takeWhile_append_dropWhile, List.reverse_reverse]

theorem trimRight_isPrefix (text : Chars) : trimRight text <+: text := by
  obtain ⟨back, _, htext⟩ := exists_trimRight_append text
  exact ⟨back, htext.symm⟩

/-- Trimming leaves no white space at either end. -/
theorem isTrimmed_trim (text : Chars) : IsTrimmed (trim text) := by
  have hdrop (text : Chars) : ∀ c, (text.dropWhile isBlank).head? = some c → isBlank c = false := by
    intro c hc
    have hhead := List.head?_dropWhile_not isBlank text
    rw [hc] at hhead
    simpa using hhead
  constructor
  · intro c hc
    obtain ⟨back, hback⟩ := trimRight_isPrefix (trimLeft text)
    apply hdrop text c
    change (trimLeft text).head? = some c
    rw [← hback, List.head?_append, show (trimRight (trimLeft text)).head? = some c from hc]
    rfl
  · intro c hc
    rw [trim, trimRight, List.getLast?_reverse] at hc
    exact hdrop _ c hc

theorem trim_trim (text : Chars) : trim (trim text) = trim text := by
  by_cases hempty : trim text = []
  · rw [hempty]
    rfl
  · exact trim_of_isTrimmed (isTrimmed_trim text) hempty

/-- What is trimmed at the end of a text may as well be trimmed before its tabs are widened. -/
theorem trimRight_widenTabs_trimRight (text : Chars) :
    trimRight (widenTabs (trimRight text)) = trimRight (widenTabs text) := by
  obtain ⟨back, hback, htext⟩ := exists_trimRight_append text
  obtain ⟨later, hlater⟩ := widenTabsFrom_append 0 (trimRight text) back
  rw [← htext] at hlater
  rw [widenTabs, widenTabs, hlater,
    trimRight_append_blank fun _ hc => isBlank_of_mem_widenTabsFrom hback hc]

end Backtest.Text
