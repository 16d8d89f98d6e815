import Backtest.Clock
import Backtest.Main
import Backtest.Proofs.Expr.Meaning
import Backtest.Proofs.Script.Interpretation
import Backtest.Proofs.Simulation.Truncation
import Backtest.Proofs.Strategy.Truncation
import Backtest.Proofs.Record
import Backtest.Proofs.Simulation.Reason
import Backtest.Proofs.Simulation.Runs
import Backtest.Proofs.Simulation.Mirror
import Backtest.Proofs.Simulation.Equity
import Backtest.Proofs.Search.Period
import Backtest.Proofs.Script.Comment
import Backtest.Proofs.Input.Heading
import Backtest.Proofs.Input.Scan
import Backtest.Proofs.Input.Argument
import Backtest.Proofs.Input.Literal
import Backtest.Proofs.Input.Default
import Backtest.Proofs.Input.Update
import Backtest.Proofs.Input.Readback
import Backtest.Proofs.Decimal.Shown
import Backtest.Proofs.Input.Hole
import Backtest.Proofs.Input.Overwrite
import Backtest.Proofs.Search.Repeat
import Backtest.Proofs.Search.Derived
import Backtest.Proofs.Search.Ranking
import Backtest.Proofs.Decimal.Order
import Backtest.Proofs.Decimal.Faithful
import Backtest.Proofs.Decimal.Conversion
import Backtest.Proofs.Prices
import Backtest.Proofs.Decimal.Quotient
import Backtest.Proofs.Summary.Fault
import Backtest.Proofs.Strategy.Fault
import Backtest.Proofs.Expr.Binding
import Backtest.Proofs.Script.Equality
import Backtest.Proofs.Script.Rule
import Backtest.Proofs.Strategy.Ready
import Backtest.Proofs.Strategy.Transcript
import Backtest.Proofs.Strategy.Agreement
import Backtest.Proofs.Decimal.Half
import Backtest.Proofs.Decimal.Lawful
import Backtest.Proofs.Expr.Fault
import Backtest.Proofs.Script.Account
import Backtest.Proofs.Script.Fault
import Backtest.Proofs.Expr.Lookup
import Backtest.Proofs.Script.Lookup
import Backtest.Proofs.Strategy.Lookup
import Backtest.Proofs.Search.AxisOrder
import Backtest.Proofs.Search.Sampling
import Backtest.Proofs.Script.PrintedLine
import Backtest.Proofs.Script.RoundTrip
import Backtest.Proofs.Script.Mention
import Backtest.Proofs.Strategy.Trend
import Backtest.Proofs.Strategy.Flat
import Backtest.Proofs.Strategy.Rescale
import Backtest.Proofs.Strategy.Reversion
import Backtest.Proofs.Script.Source
import Backtest.Proofs.Script.Condition
import Backtest.Proofs.Script.Log
import Backtest.Proofs.Expr.Exchange
import Backtest.Proofs.Series.Delay
import Backtest.Proofs.Validation
import Backtest.Proofs.Script.Layout
import Backtest.Proofs.Script.Idle
import Backtest.Proofs.Series.Mean
import Backtest.Proofs.Series.Strength
import Backtest.Proofs.Series.Extreme
import Backtest.Proofs.Series.Crossing
import Backtest.Proofs.Expr.Recursion
import Backtest.Proofs.Strategy.WarmUp
import Backtest.Proofs.Summary.Drawdown
import Backtest.Proofs.Summary.Monthly
import Backtest.Proofs.Market.Missing
