/-!
# Signals

What a script or a preset can ask the simulator to do at a bar.
-/

namespace Backtest

inductive SignalKind where
  | openLong
  | openShort
  | closeLong
  | closeShort
  | closeAny
  deriving DecidableEq

namespace SignalKind

def name : SignalKind → String
  | .openLong => "long"
  | .openShort => "short"
  | .closeLong => "close_long"
  | .closeShort => "close_short"
  | .closeAny => "close_all"

def all : List SignalKind := [.openLong, .openShort, .closeLong, .closeShort, .closeAny]

def ofName? (name : String) : Option SignalKind := all.find? fun kind => kind.name == name

end SignalKind

end Backtest
