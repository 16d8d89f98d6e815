import Backtest.Scalar
import Backtest.Prices
import Backtest.Script.Signal
import Backtest.Series.Band
import Backtest.Series.Extreme
import Backtest.Series.Oscillator

/-!
# Preset strategies

Five fixed sets of rules over the close:

* two averages: long while the fast one is above the slow one, short while it is below;
* three averages: long while they are in rising order, short while in falling order, else flat;
* relative strength: long when it comes up through the lower bound, short when it comes down through
  the upper one;
* convergence: long while the line is above its signal, short while it is below;
* bands: from flat, long below the lower band and short above the upper one, out at the basis.

No signal is given at a bar unless every series that the rules need is defined there and at the bar
before.
-/

namespace Backtest

inductive StrategyKind where
  | dualAverage
  | tripleAverage
  | strength
  | convergence
  | bands
  deriving DecidableEq

namespace StrategyKind

def name : StrategyKind → String
  | .dualAverage => "dual_ma"
  | .tripleAverage => "triple_ma"
  | .strength => "rsi"
  | .convergence => "macd"
  | .bands => "bollinger"

def all : List StrategyKind := [.dualAverage, .tripleAverage, .strength, .convergence, .bands]

def ofName? (name : String) : Option StrategyKind := all.find? fun kind => kind.name == name

def ofName (name : String) : Outcome StrategyKind :=
  match ofName? name with
  | some kind => .ok kind
  | none => .error (.unknownName name .strategy)

end StrategyKind

namespace Preset

open Series

/-- The signals that a preset gives, in order, and whether it opens positions only from flat. -/
structure Rules where
  signals : List (SignalKind × Flags)
  fromFlat : Bool

variable {α : Type} [Arith α]

/-- The parameters of a preset and their defaults. -/
def defaults : StrategyKind → Params α
  | .dualAverage => [("fastLength", .int 9), ("slowLength", .int 21), ("maType", .text "EMA")]
  | .tripleAverage =>
      [("fastLength", .int 5), ("midLength", .int 13), ("slowLength", .int 34),
        ("maType", .text "EMA")]
  | .strength => [("rsiPeriod", .int 14), ("oversold", .int 30), ("overbought", .int 70)]
  | .convergence => [("fastLength", .int 12), ("slowLength", .int 26), ("signalLength", .int 9)]
  | .bands => [("bbLength", .int 20), ("bbMult", .real (Arith.ofNat 2))]

/-- The defaults with the given parameters over them. -/
def resolve (kind : StrategyKind) (params : Params α) : Params α :=
  Record.overlay (defaults kind) params

/-- The bars at which all series are defined. -/
def allDefined : List (Series α) → Flags
  | [] => []
  | [xs] => xs.map fun x => !Arith.isNaN x
  | xs :: rest => List.zipWith (fun x others => !Arith.isNaN x && others) xs (allDefined rest)

/-- The bars at which all series are defined and were so at the bar before. -/
def ready (series : List (Series α)) : Flags :=
  stepwise (fun last defined => last.getD false && defined) (allDefined series)

def param (params : Params α) (name : String) : Scalar α := (params.get? name).getD .missing

def periodOf (params : Params α) (name : String) (default : Nat) : Outcome Nat :=
  (param params name).period default

def averageKind (params : Params α) : AverageKind := .ofName (param params "maType").toText

/-- The average of the close that a parameter gives the length of. -/
def closeAverage (prices : Prices α) (params : Params α) (name : String) : Outcome (Series α) := do
  average (averageKind params) (← periodOf params name 14) prices.close

/-- The ready bars at which a test holds between two series. -/
def readyWhere (ok : Flags) (test : α → α → Bool) (xs ys : Series α) : Flags :=
  List.zipWith (fun ready holds => ready && holds) ok (List.zipWith test xs ys)

def above (x y : α) : Bool := Arith.less y x

/-- Long while the first series is above the second, short while it is below. -/
def sides (xs ys : Series α) : Rules :=
  let ok := ready [xs, ys]
  ⟨[(.openLong, readyWhere ok above xs ys), (.openShort, readyWhere ok Arith.less xs ys)], false⟩

def dualAverage (prices : Prices α) (params : Params α) : Outcome Rules := do
  let fast ← closeAverage prices params "fastLength"
  let slow ← closeAverage prices params "slowLength"
  pure (sides fast slow)

def tripleAverage (prices : Prices α) (params : Params α) : Outcome Rules := do
  let fast ← closeAverage prices params "fastLength"
  let mid ← closeAverage prices params "midLength"
  let slow ← closeAverage prices params "slowLength"
  let ok := ready [fast, mid, slow]
  let rising := readyWhere (readyWhere ok above fast mid) above mid slow
  let falling := readyWhere (readyWhere ok Arith.less fast mid) Arith.less mid slow
  let neither := List.zipWith (fun ready sides => ready && !sides) ok
    (List.zipWith (· || ·) rising falling)
  pure ⟨[(.openLong, rising), (.openShort, falling), (.closeAny, neither)], false⟩

def strength (prices : Prices α) (params : Params α) : Outcome Rules := do
  let line := relativeStrength (← periodOf params "rsiPeriod" 14) prices.close
  let oversold ← (param params "oversold").toReal
  let overbought ← (param params "overbought").toReal
  let ok := ready [line]
  let bound (level : α) : Series α := List.replicate line.length level
  pure ⟨[(.openLong, List.zipWith (· && ·) ok (crossover line (bound oversold))),
    (.openShort, List.zipWith (· && ·) ok (crossunder line (bound overbought)))], false⟩

def convergence (prices : Prices α) (params : Params α) : Outcome Rules := do
  let fast ← periodOf params "fastLength" 14
  let slow ← periodOf params "slowLength" 14
  let signal ← periodOf params "signalLength" 14
  let lines := Series.convergence fast slow signal prices.close
  pure (sides lines.line lines.signal)

def bands (prices : Prices α) (params : Params α) : Outcome Rules := do
  let period ← periodOf params "bbLength" 20
  let width ← (param params "bbMult").toReal
  let lines := Series.bands period width prices.close
  let ok := ready [lines.upper, lines.basis, lines.lower]
  let close := prices.close
  pure ⟨[(.openLong, readyWhere ok Arith.less close lines.lower),
    (.openShort, readyWhere ok above close lines.upper),
    (.closeLong, readyWhere ok (fun x y => Arith.atMost y x) close lines.basis),
    (.closeShort, readyWhere ok Arith.atMost close lines.basis)], true⟩

/-- The rules of a preset over a price table, with all of its parameters given. -/
def build (kind : StrategyKind) (prices : Prices α) (params : Params α) : Outcome Rules :=
  match kind with
  | .dualAverage => dualAverage prices params
  | .tripleAverage => tripleAverage prices params
  | .strength => strength prices params
  | .convergence => convergence prices params
  | .bands => bands prices params

end Preset

end Backtest
