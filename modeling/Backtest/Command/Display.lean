import Backtest.Command.Refusal
import Backtest.Decimal.Double
import Backtest.Search.Optimize

/-!
# Reports as text

The lines in which the command line shows a report, its months, and the best results of a search.
Percentages have two places and ratios three; columns are filled with blanks.
-/

namespace Backtest.Command

open Decimal

/-- A number with a count of places. -/
def shown (places : Nat) (x : Float) : String := Arith.fixed places x

/-- A number with a count of places and always a sign. -/
def signed (places : Nat) (x : Float) : String :=
  String.ofList (Field.render ⟨places, true, false⟩ (Binary.ofFloat x))

/-- An amount of money: two places, and commas between the thousands. -/
def money (x : Float) : String :=
  String.ofList (Field.render ⟨2, false, true⟩ (Binary.ofFloat x))

/-- A bound or a step of a range: six significant digits. -/
def brief (x : Float) : String := String.ofList (significant 6 (Binary.ofFloat x))

/-- Fills a text up to a width with blanks on its right. -/
def alignLeft (width : Nat) (text : String) : String :=
  text ++ String.ofList (List.replicate (width - text.length) ' ')

/-- An integer filled up to a width with zeros behind its sign. -/
def zeroFilled (width : Nat) (n : Int) : String :=
  let sign := if n < 0 then "-" else ""
  let digits := toString n.natAbs
  sign ++ String.ofList (List.replicate (width - sign.length - digits.length) '0') ++ digits

def repeated (count : Nat) (c : Char) : String := String.ofList (List.replicate count c)

/-- The line between the parts of the output. -/
def rule : String := repeated 70 '='

/-- Parameters with their values. -/
def paramText (params : Params Float) : String :=
  Text.join ", " (params.map fun entry => entry.1 ++ "=" ++ entry.2.toText)

/-- The line about money; it is left out where nothing was won or lost. -/
def profitLines (metrics : Metrics Float) : List String :=
  if metrics.dollars == 0 && metrics.points == 0 then []
  else ["  P&L: $" ++ money metrics.dollars ++ " | Points: " ++ signed 2 metrics.points]

/-- The metrics of a report under a title. -/
def reportLines (title : String) (report : Report Float) : List String :=
  let metrics := report.metrics
  ["", rule, "  " ++ title, "  Params: " ++ paramText report.params,
    "  Return: " ++ signed 2 metrics.totalReturn ++ "% | Annualized: " ++
      signed 2 metrics.annualizedReturn ++ "% | Sharpe: " ++ shown 3 metrics.sharpe ++
      " | MaxDD: " ++ shown 2 metrics.maxDrawdown ++ "%",
    "  Win Rate: " ++ shown 2 metrics.winRate ++ "% | Trades: " ++ toString metrics.trades ++
      " | Profit Factor: " ++ shown 3 metrics.profitFactor ++ " | Avg Trade: " ++
      signed 3 metrics.averageTrade ++ "%"] ++
    profitLines metrics ++ [rule]

def monthlyHeader : String :=
  "  " ++ alignLeft 8 "Month" ++ " " ++ alignRight 7 "Trades" ++ " " ++ alignRight 5 "Wins" ++
    " " ++ alignRight 9 "P&L%" ++ " " ++ alignRight 12 "P&L$"

def monthLine (row : MonthlyRow Float) : String :=
  "  " ++ zeroFilled 4 row.year ++ "-" ++ zeroFilled 2 row.month ++ " " ++
    alignRight 7 (toString row.trades) ++ " " ++ alignRight 5 (toString row.wins) ++ " " ++
    alignRight 8 (signed 2 row.percent) ++ "% " ++ alignRight 12 (money row.dollars)

/-- The months of a report; without trades there are none. -/
def monthlyLines (report : Report Float) : List String :=
  if report.monthly.isEmpty then []
  else "" :: monthlyHeader :: report.monthly.map monthLine

/-- The line about a range to search. -/
def rangeLine (name : String) (least greatest step : Float) : String :=
  "    " ++ name ++ ": " ++ brief least ++ " .. " ++ brief greatest ++ " step " ++ brief step

def rankedHeader : String :=
  alignRight 3 "#" ++ " " ++ alignRight 9 "Return%" ++ " " ++ alignRight 8 "Sharpe" ++ " " ++
    alignRight 8 "MaxDD%" ++ " " ++ alignRight 9 "WinRate%" ++ " " ++ alignRight 7 "Trades" ++
    " " ++ alignRight 7 "PF" ++ "  Params"

def rankedLine (ranked : Search.Ranked Float) : String :=
  let metrics := ranked.report.metrics
  alignRight 3 (toString ranked.place) ++ " " ++
    alignRight 8 (signed 2 metrics.totalReturn) ++ "% " ++
    alignRight 8 (shown 3 metrics.sharpe) ++ " " ++
    alignRight 8 (shown 2 metrics.maxDrawdown) ++ " " ++
    alignRight 8 (shown 2 metrics.winRate) ++ "% " ++
    alignRight 7 (toString metrics.trades) ++ " " ++
    alignRight 7 (shown 3 metrics.profitFactor) ++ "  " ++ paramText ranked.report.params

/-- The table of the best results of a search. -/
def rankedLines (top : Int) (metric : String) (results : List (Search.Ranked Float)) :
    List String :=
  ["", rule, "  TOP " ++ toString top ++ " COMBINATIONS (sorted by " ++ metric ++ ")", rule,
    rankedHeader, repeated (rankedHeader.length + 30) '-'] ++ results.map rankedLine

/-- The first lines of the output. -/
def banner : List String := [rule, "  STRATOPT - Strategy Backtester & Optimizer", rule]

/-- The lines that explain the command line. -/
def helpLines (task : Option Task) : List String :=
  match task with
  | none => ["usage: " ++ programName ++ " [-h] command ...", "",
      "commands: " ++ Text.join ", " (Task.all.map Task.name)]
  | some task => ["usage: " ++ programName ++ " " ++ task.name ++ " [options]", "",
      "options: " ++ Text.join " " (task.keys.map Key.label)]

end Backtest.Command
