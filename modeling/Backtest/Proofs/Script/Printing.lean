import Backtest.Proofs.Script.Comment
import Backtest.Proofs.Text.Cut
import Backtest.Script.Block
import Mathlib.Data.List.Basic

/-!
# Printed scripts

A tree of statements is printed one statement per line, four spaces deeper for each level of
nesting.  `rows` gives the lines with their depths and `print` the whole text.  Whatever texts are
printed as rows are the content of the lines of the printed text, at the indentation of their depth
(`contentLines_printRows`).
-/

namespace Backtest.Script

open Text Backtest.Expr

/-! ## Texts of statements -/

/-- `name = expression` -/
def assignText (name : String) (expression : Chars) : Chars :=
  name.toList ++ ' ' :: '=' :: ' ' :: expression

/-- `[first, second, third] = call(arguments)` -/
def destructureText (names : List String) (triple : Triple) (arguments : List Chars) : Chars :=
  '[' :: (commas (names.map String.toList) ++
    ']' :: ' ' :: '=' :: ' ' :: callText triple.name.toList arguments)

/-- The call that asks for a signal; positions of both sides are closed by one call if there is a
label and by another one if there is none. -/
def callFor (kind : SignalKind) (label : Option String) : SignalCall :=
  match kind with
  | .openLong | .openShort => .entry
  | .closeLong | .closeShort => .close
  | .closeAny => if label.isSome then .exit else .closeAll

/-- The direction that an entry names. -/
def directionFor : SignalKind → Option Chars
  | .openLong => some "strategy.long".toList
  | .openShort => some "strategy.short".toList
  | _ => none

def labelText (label : String) : Chars := '"' :: (label.toList ++ ['"'])

def argumentsFor (kind : SignalKind) (label : Option String) : List Chars :=
  (label.map labelText).toList ++ (directionFor kind).toList

/-- The call of a signal with its label in quotes. -/
def signalText (kind : SignalKind) (label : Option String) : Chars :=
  callText (callFor kind label).name.toList (argumentsFor kind label)

def ifText : Chars := ['i', 'f', ' ']

def elseText : Chars := ['e', 'l', 's', 'e']

def elseIfText : Chars := elseText ++ ' ' :: ifText

/-! ## Rows -/

/-- A line of a printed script: how deep it is nested, and what it says. -/
structure Row where
  depth : Nat
  text : Chars

mutual

/-- The rows of a statement. -/
def Statement.rows (depth : Nat) : Statement → List Row
  | .assign _ name expression => [⟨depth, assignText name expression⟩]
  | .destructure _ names triple arguments => [⟨depth, destructureText names triple arguments⟩]
  | .signal _ kind label => [⟨depth, signalText kind label⟩]
  | .chain _ branches otherwise =>
      Branch.rows depth ifText branches ++
        if otherwise.isEmpty then []
        else ⟨depth, elseText⟩ :: Statement.blockRows (depth + 1) otherwise

def Statement.blockRows (depth : Nat) : List Statement → List Row
  | [] => []
  | first :: rest => first.rows depth ++ Statement.blockRows depth rest

/-- The rows of the branches of a chain, the first of which opens with the given words. -/
def Branch.rows (depth : Nat) (opening : Chars) : List Branch → List Row
  | [] => []
  | .mk _ condition body :: rest =>
      ⟨depth, opening ++ condition⟩ ::
        (Statement.blockRows (depth + 1) body ++ Branch.rows depth elseIfText rest)

end

def Row.indent (row : Row) : Nat := 4 * row.depth

def Row.print (row : Row) : Chars := List.replicate row.indent ' ' ++ row.text

/-- Rows with a line feed after each. -/
def printRows (rows : List Row) : Chars := rows.flatMap fun row => row.print ++ ['\n']

/-- The text of a script. -/
def print (statements : List Statement) : Chars := printRows (Statement.blockRows 0 statements)

/-! ## Lines of a printed text -/

/-- A text that can be all that a line says. -/
structure IsLineText (text : Chars) : Prop where
  nonempty : text ≠ []
  trimmed : IsTrimmed text
  inline : ∀ c ∈ text, isLineEnd c = false ∧ c ≠ '\t'
  uncommented : beforeComment none text = text

instance (text : Chars) : Decidable (IsLineText text) :=
  decidable_of_iff (text ≠ [] ∧ IsTrimmed text ∧ (∀ c ∈ text, isLineEnd c = false ∧ c ≠ '\t') ∧
      beforeComment none text = text)
    ⟨fun ⟨hne, htrimmed, hinline, hwhole⟩ => ⟨hne, htrimmed, hinline, hwhole⟩,
      fun htext => ⟨htext.nonempty, htext.trimmed, htext.inline, htext.uncommented⟩⟩

section Lines

variable {text : Chars}

theorem widenTabsFrom_of_forall (htext : ∀ c ∈ text, c ≠ '\t') (column : Nat) :
    widenTabsFrom column text = text := by
  induction text generalizing column with
  | nil => rw [widenTabsFrom]
  | cons c rest ih =>
      obtain ⟨hc, hrest⟩ := List.forall_mem_cons.1 htext
      rw [widenTabsFrom_cons column hc, ih hrest]

theorem trimRight_of_last (hlast : ∀ c, text.getLast? = some c → isBlank c = false) :
    trimRight text = text := by
  have hdrop : text.reverse.dropWhile isBlank = text.reverse := by
    apply trimLeft_eq_self
    intro c hc
    rw [List.head?_reverse] at hc
    exact hlast c hc
  rw [trimRight, hdrop, List.reverse_reverse]

/-- A line with its indentation is read as its text and the width of the indentation. -/
theorem ofText?_indented (htext : IsLineText text) (number indent : Nat) :
    Line.ofText? number (List.replicate indent ' ' ++ text) = some ⟨number, indent, text⟩ := by
  have hspaces : ∀ c ∈ List.replicate indent ' ', isBlank c = true := by
    intro c hc
    rw [List.eq_of_mem_replicate hc]
    decide
  have hwide : widenTabs (List.replicate indent ' ' ++ text) =
      List.replicate indent ' ' ++ text := by
    apply widenTabsFrom_of_forall
    rw [List.forall_mem_append]
    refine ⟨fun c hc => ?_, fun c hc => (htext.inline c hc).2⟩
    rw [List.eq_of_mem_replicate hc]
    decide
  have hshown : stripComment (List.replicate indent ' ' ++ text) =
      List.replicate indent ' ' ++ text := by
    rw [stripComment, beforeComment_replicate isMark_none, htext.uncommented]
    apply trimRight_of_last
    rw [List.getLast?_append_of_ne_nil _ htext.nonempty]
    exact htext.trimmed.last
  have htrim : trim (List.replicate indent ' ' ++ (text ++ [])) = text :=
    trim_padded hspaces (List.forall_mem_nil _) htext.trimmed htext.nonempty
  have hleft : trimLeft (List.replicate indent ' ' ++ text) = text :=
    dropWhile_blank hspaces htext.trimmed.head
  rw [List.append_nil] at htrim
  rw [Line.ofText?, hwide, hshown, htrim, hleft, List.isEmpty_eq_false_iff.2 htext.nonempty,
    List.length_append, List.length_replicate, Nat.add_sub_cancel]
  rfl

/-- The lines of printed rows are the rows. -/
theorem contentLines_printRows {rows : List Row} (hrows : ∀ row ∈ rows, IsLineText row.text) :
    (contentLines (printRows rows)).map (fun line => (line.indent, line.text)) =
      rows.map fun row => (row.indent, row.text) := by
  have hlines : lines (printRows rows) = rows.map Row.print := by
    have hinline : ∀ line ∈ rows.map Row.print, OneLine line := by
      intro line hline
      obtain ⟨row, hrow, rfl⟩ := List.mem_map.1 hline
      rw [OneLine, Row.print, List.forall_mem_append]
      refine ⟨fun c hc => ?_, fun c hc => ((hrows row hrow).inline c hc).1⟩
      rw [List.eq_of_mem_replicate hc]
      decide
    rw [← lines_flatMap_lineFeed hinline, List.flatMap_map, printRows]
  rw [contentLines, hlines]
  clear hlines
  generalize 1 = number
  induction rows generalizing number with
  | nil => rfl
  | cons row rest ih =>
      obtain ⟨hrow, hrest⟩ := List.forall_mem_cons.1 hrows
      have hread : Line.ofText? number row.print = some ⟨number, row.indent, row.text⟩ :=
        ofText?_indented hrow number row.indent
      rw [List.map_cons, List.zipIdx_cons, List.filterMap_cons, hread]
      dsimp only
      rw [List.map_cons, ih hrest, List.map_cons]

end Lines

end Backtest.Script
