/-!
# Timeframes

The names of bar lengths.
-/

namespace Backtest.Market

/-- The bar lengths in seconds. -/
def timeframes : List (String × Int) :=
  [("1m", 60), ("3m", 180), ("5m", 300), ("15m", 900), ("30m", 1800), ("1h", 3600), ("2h", 7200),
    ("4h", 14400), ("6h", 21600), ("8h", 28800), ("12h", 43200), ("1d", 86400), ("3d", 259200),
    ("1w", 604800)]

/-- The length of a bar in milliseconds; an unknown name means an hour. -/
def barMillis (timeframe : String) : Int :=
  match timeframes.find? fun entry => entry.1 == timeframe with
  | some entry => entry.2 * 1000
  | none => 3600000

end Backtest.Market
