import Backtest.Text.Trim

/-!
# Lines

Cutting a text into lines and widening its tabs.
-/

namespace Backtest.Text

/-- Cuts a text after each line end; a carriage return and a line feed end a line together.  `line`
holds the characters of the open line, the latest first. -/
def linesFrom (line : Chars) : Chars → List Chars
  | [] => if line.isEmpty then [] else [line.reverse]
  | '\r' :: '\n' :: rest => line.reverse :: linesFrom [] rest
  | c :: rest =>
      if isLineEnd c then line.reverse :: linesFrom [] rest else linesFrom (c :: line) rest

/-- The lines of a text without their ends.  Nothing follows a last line end. -/
def lines (text : Chars) : List Chars := linesFrom [] text

/-- Replaces each tab by the blanks up to the next multiple of four columns. -/
def widenTabsFrom (column : Nat) : Chars → Chars
  | [] => []
  | c :: rest =>
      if c = '\t' then
        List.replicate (4 - column % 4) ' ' ++ widenTabsFrom (column + (4 - column % 4)) rest
      else if c = '\n' ∨ c = '\r' then c :: widenTabsFrom 0 rest
      else c :: widenTabsFrom (column + 1) rest

def widenTabs (text : Chars) : Chars := widenTabsFrom 0 text

/-- The pieces of a text between its line feeds. -/
def rows (text : String) : List String := (pieces '\n' text.toList).map String.ofList

end Backtest.Text
