import Backtest.Input.Param
import Backtest.Preset
import Backtest.Proofs.Script.Equality
import Backtest.Proofs.Script.Rule
import Backtest.Script.Block

/-!
# The rules of presets as scripts

Four presets have a transcript: a script that states their rules, with the lengths and bounds left
to its parameters.  Each transcript is given as the text that a user would write and as the
statements that this text is read as (`parse_ofKind`); its conditions are printed terms, so their
values are the meanings of those terms.
-/

namespace Backtest.Transcript

open Arith Backtest.Expr Script

/-! ## Terms -/

def fastLength : NameToken := ⟨"fastLength".toList, by decide, by decide⟩

def midLength : NameToken := ⟨"midLength".toList, by decide, by decide⟩

def slowLength : NameToken := ⟨"slowLength".toList, by decide, by decide⟩

def signalLength : NameToken := ⟨"signalLength".toList, by decide, by decide⟩

def rsiPeriod : NameToken := ⟨"rsiPeriod".toList, by decide, by decide⟩

def oversold : NameToken := ⟨"oversold".toList, by decide, by decide⟩

def overbought : NameToken := ⟨"overbought".toList, by decide, by decide⟩

def fast : NameToken := ⟨"fast".toList, by decide, by decide⟩

def mid : NameToken := ⟨"mid".toList, by decide, by decide⟩

def slow : NameToken := ⟨"slow".toList, by decide, by decide⟩

def m : NameToken := ⟨"m".toList, by decide, by decide⟩

def s : NameToken := ⟨"s".toList, by decide, by decide⟩

def h : NameToken := ⟨"h".toList, by decide, by decide⟩

/-- `ta.ema(close, length)` -/
def average (length : NameToken) : Term := .call .exponential [.name closeName, .name length]

/-- `ta.rsi(close, rsiPeriod)` -/
def strength : Term := .call .strength [.name closeName, .name rsiPeriod]

/-- `first > second and second > third`, or the same with another comparison. -/
def ordered (kind : Comparison) (first second third : Term) : Term :=
  .junction .conjunction (.comparison kind first second) (.comparison kind second third)

section Meaning

variable {α : Type} [Arith α] {context : Context α} {close : Series α} {x : α}

theorem meaning_average {length : NameToken}
    (hclose : context.env.value? closeName.string = some (.series close))
    (hlength : context.env.value? length.string = some (.number x)) :
    meaning context (average length) =
      some (.series (Series.exponential (windowOr 14 x) close)) := by
  simp [average, meaning, meanings, called, sourceAt, periodAt, numbers?, hclose, hlength,
    Value.numeric, windowFunction]

theorem meaning_strength (hclose : context.env.value? closeName.string = some (.series close))
    (hperiod : context.env.value? rsiPeriod.string = some (.number x)) :
    meaning context strength =
      some (.series (Series.relativeStrength (windowOr 14 x) close)) := by
  simp [strength, meaning, meanings, called, sourceAt, periodAt, numbers?, hclose, hperiod,
    Value.numeric, windowFunction]

theorem meaning_crossover {term : Term} {level : NameToken} {xs : Series α}
    (hterm : meaning context term = some (.series xs))
    (hlevel : context.env.value? level.string = some (.number x)) :
    meaning context (.call .crossover [term, .name level]) =
      some (.flags (Series.crossover xs (List.replicate context.bars x))) := by
  simp [meaning, meanings, called, sourceAt, numbers?, hterm, hlevel, Value.numeric, pairFunction]

theorem meaning_crossunder {term : Term} {level : NameToken} {xs : Series α}
    (hterm : meaning context term = some (.series xs))
    (hlevel : context.env.value? level.string = some (.number x)) :
    meaning context (.call .crossunder [term, .name level]) =
      some (.flags (Series.crossunder xs (List.replicate context.bars x))) := by
  simp [meaning, meanings, called, sourceAt, numbers?, hterm, hlevel, Value.numeric, pairFunction]

theorem meaning_comparison (kind : Comparison) {left right : Term} {xs ys : Series α}
    (hleft : meaning context left = some (.series xs))
    (hright : meaning context right = some (.series ys)) :
    meaning context (.comparison kind left right) =
      some (.flags (List.zipWith kind.test xs ys)) := by
  rw [meaning, hleft, hright]
  rfl

theorem meaning_ordered (kind : Comparison) {first second third : Term} {xs ys zs : Series α}
    (hfirst : meaning context first = some (.series xs))
    (hsecond : meaning context second = some (.series ys))
    (hthird : meaning context third = some (.series zs)) :
    meaning context (ordered kind first second third) =
      some (.flags (List.zipWith (· && ·) (List.zipWith kind.test xs ys)
        (List.zipWith kind.test ys zs))) := by
  rw [ordered, meaning, meaning_comparison kind hfirst hsecond,
    meaning_comparison kind hsecond hthird]
  rfl

end Meaning

/-! ## Texts and statements -/

/-- A text of lines. -/
def ofLines (lines : List String) : String :=
  String.ofList (lines.flatMap fun line => line.toList ++ ['\n'])

theorem toList_ofLines (lines : List String) :
    (ofLines lines).toList = lines.flatMap fun line => line.toList ++ ['\n'] :=
  String.toList_ofList

def longCall : String := "    strategy.entry(\"Long\", strategy.long)"

def shortCall : String := "    strategy.entry(\"Short\", strategy.short)"

def dualAverage : String := ofLines
  ["if ta.ema(close, fastLength) > ta.ema(close, slowLength)",
    longCall,
    "if ta.ema(close, fastLength) < ta.ema(close, slowLength)",
    shortCall]

def tripleAverage : String := ofLines
  ["fast = ta.ema(close, fastLength)",
    "mid = ta.ema(close, midLength)",
    "slow = ta.ema(close, slowLength)",
    "if fast > mid and mid > slow",
    longCall,
    "else if fast < mid and mid < slow",
    shortCall,
    "else",
    "    strategy.close_all()"]

def relativeStrength : String := ofLines
  ["if ta.crossover(ta.rsi(close, rsiPeriod), oversold)",
    longCall,
    "if ta.crossunder(ta.rsi(close, rsiPeriod), overbought)",
    shortCall]

def convergence : String := ofLines
  ["[m, s, h] = ta.macd(close, fastLength, slowLength, signalLength)",
    "if m > s",
    longCall,
    "if m < s",
    shortCall]

/-- The rules of a preset as a script; the bands have none that is meant here. -/
def ofKind? : StrategyKind → Option String
  | .dualAverage => some dualAverage
  | .tripleAverage => some tripleAverage
  | .strength => some relativeStrength
  | .convergence => some convergence
  | .bands => none

/-- Long while the first series is above the second, short while it is below. -/
def sides (line : Nat) (first second : Term) : List Statement :=
  [rule line (.comparison .above first second) .openLong (some "Long"),
    rule (line + 2) (.comparison .below first second) .openShort (some "Short")]

/-- Long while three names are in falling order, short while they are in rising order, else flat. -/
def order (line : Nat) : Statement :=
  .chain line
    [.mk line (ordered .above (.name fast) (.name mid) (.name slow)).print
        [.signal (line + 1) .openLong (some "Long")],
      .mk (line + 2) (ordered .below (.name fast) (.name mid) (.name slow)).print
        [.signal (line + 3) .openShort (some "Short")]]
    [.signal (line + 5) .closeAny none]

/-- The source and the three lengths that the lines of a convergence are called with. -/
def lineArguments : List Term :=
  [.name closeName, .name fastLength, .name slowLength, .name signalLength]

/-- The statements of the transcript of a preset. -/
def statements : StrategyKind → List Statement
  | .dualAverage => sides 1 (average fastLength) (average slowLength)
  | .tripleAverage =>
      [.assign 1 fast.string (average fastLength).print,
        .assign 2 mid.string (average midLength).print,
        .assign 3 slow.string (average slowLength).print, order 4]
  | .strength =>
      [rule 1 (.call .crossover [strength, .name oversold]) .openLong (some "Long"),
        rule 3 (.call .crossunder [strength, .name overbought]) .openShort (some "Short")]
  | .convergence =>
      .destructure 1 [m.string, s.string, h.string] .convergence (Term.texts lineArguments) ::
        sides 2 (.name m) (.name s)
  | .bands => []

theorem parse_ofKind {kind : StrategyKind} {code : String} (hcode : ofKind? kind = some code) :
    parse code.toList = statements kind := by
  cases kind with
  | dualAverage =>
      injection hcode with hcode
      rw [← hcode, dualAverage, toList_ofLines]
      decide +kernel
  | tripleAverage =>
      injection hcode with hcode
      rw [← hcode, tripleAverage, toList_ofLines]
      decide +kernel
  | strength =>
      injection hcode with hcode
      rw [← hcode, relativeStrength, toList_ofLines]
      decide +kernel
  | convergence =>
      injection hcode with hcode
      rw [← hcode, convergence, toList_ofLines]
      decide +kernel
  | bands => exact nomatch hcode

/-- A transcript declares no parameters. -/
theorem scriptDefaults_eq_nil {α : Type} [Arith α] {kind : StrategyKind} {code : String}
    (hcode : ofKind? kind = some code) : (Input.scriptDefaults code.toList : Params α) = [] := by
  suffices hnone : (Input.declarations code.toList).isEmpty = true by
    rw [Input.scriptDefaults, Input.params, List.isEmpty_iff.1 hnone]
    rfl
  cases kind with
  | dualAverage =>
      injection hcode with hcode
      rw [← hcode, dualAverage, toList_ofLines]
      decide +kernel
  | tripleAverage =>
      injection hcode with hcode
      rw [← hcode, tripleAverage, toList_ofLines]
      decide +kernel
  | strength =>
      injection hcode with hcode
      rw [← hcode, relativeStrength, toList_ofLines]
      decide +kernel
  | convergence =>
      injection hcode with hcode
      rw [← hcode, convergence, toList_ofLines]
      decide +kernel
  | bands => exact nomatch hcode

end Backtest.Transcript
