import Backtest.Expr.Operator
import Backtest.Script.Signal
import Backtest.Text.Trim

/-!
# Statements

A script is a list of statements.  Conditions, expressions and arguments are kept as text; they are
evaluated when the script runs.
-/

namespace Backtest.Script

open Text

mutual

/-- A statement with the number of its line. -/
inductive Statement where
  /-- `name = expression` -/
  | assign (line : Nat) (name : String) (expression : Chars)
  /-- `[first, second, third] = call(arguments)` with up to three names. -/
  | destructure (line : Nat) (names : List String) (triple : Expr.Triple) (arguments : List Chars)
  | signal (line : Nat) (kind : SignalKind) (label : Option String)
  /-- An `if` with its branches, and what happens if none of them is taken. -/
  | chain (line : Nat) (branches : List Branch) (otherwise : List Statement)

/-- One condition of an `if` and the statements under it. -/
inductive Branch where
  | mk (line : Nat) (condition : Chars) (body : List Statement)

end

/-- The number of the line that a statement starts on. -/
def Statement.line : Statement → Nat
  | .assign line _ _ | .destructure line _ _ _ | .signal line _ _ | .chain line _ _ => line

end Backtest.Script
