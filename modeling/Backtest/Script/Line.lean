import Backtest.Text.Line

/-!
# Script lines

A line of a script without its comment, with its number and its indentation.  Blank lines and lines
of comments alone are left out.
-/

namespace Backtest.Script

open Text

/-- The text before the first `//` that is outside quotes. -/
def beforeComment (quote : Option Char) : Chars → Chars
  | [] => []
  | c :: rest =>
      match quote with
      | some mark => c :: beforeComment (if c = mark then none else quote) rest
      | none =>
          if isQuote c then c :: beforeComment (some c) rest
          else if c == '/' && rest.head? == some '/' then []
          else c :: beforeComment none rest

/-- A line without its comment and without the white space before it. -/
def stripComment (text : Chars) : Chars := trimRight (beforeComment none text)

/-- A line with content; lines are counted from one. -/
structure Line where
  number : Nat
  indent : Nat
  text : Chars
  deriving DecidableEq

/-- The content of one line, if it has any. -/
def Line.ofText? (number : Nat) (raw : Chars) : Option Line :=
  let shown := stripComment (widenTabs raw)
  let text := trim shown
  if text.isEmpty then none else some ⟨number, shown.length - (trimLeft shown).length, text⟩

/-- The lines of a script that have content. -/
def contentLines (code : Chars) : List Line :=
  ((lines code).zipIdx 1).filterMap fun entry => Line.ofText? entry.2 entry.1

end Backtest.Script
