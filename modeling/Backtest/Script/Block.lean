import Backtest.Script.Reading

/-!
# Blocks

Blocks follow the indentation.  An `if` owns the lines after it that are indented deeper than
itself, and `else if` and `else` at its own indentation continue the chain.  `Block.ofLines` reads
the lines of one block; `parse` reads a whole script.
-/

namespace Backtest.Script

open Text

namespace Block

/-- The lines at the front that belong to a head of the given indentation. -/
def owned (indent : Nat) (lines : List Line) : List Line :=
  lines.takeWhile fun line => indent < line.indent

/-- The lines after those that belong to a head of the given indentation. -/
def after (indent : Nat) (lines : List Line) : List Line :=
  lines.dropWhile fun line => indent < line.indent

theorem length_owned_le (indent : Nat) (lines : List Line) :
    (owned indent lines).length ≤ lines.length :=
  (List.takeWhile_sublist _).length_le

theorem length_after_le (indent : Nat) (lines : List Line) :
    (after indent lines).length ≤ lines.length :=
  (List.dropWhile_sublist _).length_le

/-- The condition of a line that continues a chain of the given indentation. -/
def continuation? (indent : Nat) (line : Line) : Option Chars :=
  if line.indent = indent then elseIfCondition? line.text else none

/-- A line that starts the last part of a chain of the given indentation. -/
def isLastPart (indent : Nat) (line : Line) : Bool :=
  line.indent == indent && isElse line.text

/-- The lines after the rest of a chain. -/
def afterChain (indent : Nat) : List Line → List Line
  | [] => []
  | line :: rest =>
      if (continuation? indent line).isSome then afterChain indent (after indent rest)
      else if isLastPart indent line then after indent rest
      else line :: rest
termination_by lines => lines.length
decreasing_by exact Nat.lt_succ_of_le (length_after_le indent rest)

theorem length_afterChain_le (indent : Nat) (lines : List Line) :
    (afterChain indent lines).length ≤ lines.length := by
  fun_induction afterChain indent lines with
  | case1 => simp
  | case2 line rest _ ih =>
      have := length_after_le indent rest
      simp only [List.length_cons]
      omega
  | case3 line rest _ _ =>
      have := length_after_le indent rest
      simp only [List.length_cons]
      omega
  | case4 => simp

mutual

/-- The statements of the lines of one block. -/
def ofLines : List Line → List Statement
  | [] => []
  | line :: rest =>
      match ifCondition? line.text with
      | some condition =>
          let body := ofLines (owned line.indent rest)
          let chain := chainOfLines line.indent (after line.indent rest)
          .chain line.number (.mk line.number (cleanCondition condition) body :: chain.1) chain.2 ::
            ofLines (afterChain line.indent (after line.indent rest))
      | none => (simple? line).toList ++ ofLines rest
termination_by lines => lines.length
decreasing_by
  · exact Nat.lt_succ_of_le (length_owned_le _ _)
  · exact Nat.lt_succ_of_le (length_after_le _ _)
  · exact Nat.lt_succ_of_le (Nat.le_trans (length_afterChain_le _ _) (length_after_le _ _))
  · simp

/-- The further branches of a chain and its last part. -/
def chainOfLines (indent : Nat) : List Line → List Branch × List Statement
  | [] => ([], [])
  | line :: rest =>
      match continuation? indent line with
      | some condition =>
          let body := ofLines (owned indent rest)
          let others := chainOfLines indent (after indent rest)
          (.mk line.number (cleanCondition condition) body :: others.1, others.2)
      | none =>
          if isLastPart indent line then ([], ofLines (owned indent rest)) else ([], [])
termination_by lines => lines.length
decreasing_by
  · exact Nat.lt_succ_of_le (length_owned_le _ _)
  · exact Nat.lt_succ_of_le (length_after_le _ _)
  · exact Nat.lt_succ_of_le (length_owned_le _ _)

end

end Block

/-- The statements of a script. -/
def parse (code : Chars) : List Statement := Block.ofLines (contentLines code)

end Backtest.Script
