import Backtest.Expr.Operator
import Backtest.Expr.Split
import Backtest.Expr.Value
import Backtest.Series.Band
import Backtest.Series.Extreme
import Backtest.Series.Oscillator

/-!
# Evaluating expressions

A fixed list of constructs is tried on the text, and the first one that gives a value wins; the
order of the list is the precedence of the operators.  A construct whose text matches but whose
operands have no value passes the text on to the next one.

`step` is one level of evaluation, with the evaluation of operands left open, and `evaluateWithin`
closes it up to a depth of nesting.  Operands are shorter than their expression, so the depth that
`evaluate?` allows is never used up.
-/

namespace Backtest.Expr

open Text

/-- The part of an evaluation that stays the same: the values of names and the number of bars. -/
structure Context (α : Type) where
  env : Environment α
  bars : Nat

/-- An evaluator of operands. -/
abbrev Evaluator (α : Type) := Chars → Outcome (Option (Value α))

/-- The first value that a list of attempts on the same input gives. -/
def firstOf {ι β : Type} (input : ι) : List (ι → Outcome (Option β)) → Outcome (Option β)
  | [] => .ok none
  | attempt :: others => do
      match ← attempt input with
      | some value => pure (some value)
      | none => firstOf input others

variable {α : Type} [Arith α]

section Operands

variable (context : Context α) (operand : Evaluator α)

/-- The numeric series of a value, if there is a value. -/
def numericValue : Option (Value α) → Outcome (Option (Series α))
  | some value => value.numeric context.bars
  | none => .ok none

/-- The numeric series of an operand. -/
def numericOf (text : Chars) : Outcome (Option (Series α)) := do
  numericValue context (← operand text)

/-- The truth series of an operand. -/
def truthOf (text : Chars) : Outcome (Option Flags) := do
  match ← operand text with
  | some value => pure (value.truth context.bars)
  | none => pure none

/-- The values of both operands, if both have one; the right one is evaluated in any case. -/
def bothOf {β : Type} (side : Chars → Outcome (Option β)) (texts : Chars × Chars) :
    Outcome (Option (β × β)) := do
  let left ← side texts.1
  let right ← side texts.2
  match left, right with
  | some x, some y => pure (some (x, y))
  | _, _ => pure none

/-- Takes each bar from the first series where a condition holds, and from the second elsewhere. -/
def choose {β : Type} (chosen : Flags) (xs ys : List β) : List β :=
  List.zipWith (fun flag sides => if flag then sides.1 else sides.2) chosen (xs.zip ys)

/-- What a choice gives for the values of its two branches: truth values if both branches hold them,
else numbers. -/
def pick (chosen : Flags) (x y : Option (Value α)) : Outcome (Option (Value α)) :=
  match x.bind (·.onlyTruth context.bars), y.bind (·.onlyTruth context.bars) with
  | some p, some q => .ok (some (.flags (choose chosen p q)))
  | _, _ => do
      let xs ← numericValue context x
      let ys ← numericValue context y
      match xs, ys with
      | some xs, some ys => pure (some (.series (choose chosen xs ys)))
      | _, _ => pure none

/-- `condition ? first : second`, split at the first question mark and the first colon after it. -/
def ternary (text : Chars) : Outcome (Option (Value α)) := do
  match firstSplit ['?'] text with
  | none => pure none
  | some (condition, branches) =>
      match firstSplit [':'] branches with
      | none => pure none
      | some (first, second) =>
          match ← truthOf context operand condition with
          | none => pure none
          | some chosen =>
              let x ← operand first
              let y ← operand second
              pick context chosen x y

/-- A junction in one of its spellings, split at the first occurrence. -/
def junction (kind : Junction) (symbol : Chars) (text : Chars) : Outcome (Option (Value α)) := do
  match firstSplit symbol text with
  | none => pure none
  | some texts =>
      match ← bothOf (truthOf context operand) texts with
      | some (p, q) => pure (some (.flags (List.zipWith kind.apply p q)))
      | none => pure none

/-- The text of a negated condition. -/
def negated? (text : Chars) : Option Chars :=
  match after? ['n', 'o', 't', ' '] text with
  | some rest => some rest
  | none => after? ['!'] text

def negation (text : Chars) : Outcome (Option (Value α)) := do
  match negated? text with
  | none => pure none
  | some rest =>
      match ← truthOf context operand rest with
      | some flags => pure (some (.flags (flags.map (!·))))
      | none => pure none

/-- An equality of which a side is not numeric compares texts; a series has no text and equals
nothing. -/
def textEquality (kind : Comparison) (x y : Value α) : Option (Value α) :=
  let equal := match x.comparedText with
    | some left => y.comparedText == some left
    | none => false
  match kind with
  | .equals => some (.flags (List.replicate context.bars equal))
  | .differs => some (.flags (List.replicate context.bars !equal))
  | _ => none

/-- A comparison, split at the first occurrence of its symbol. -/
def comparison (kind : Comparison) (text : Chars) : Outcome (Option (Value α)) := do
  match firstSplit kind.symbol text with
  | none => pure none
  | some texts =>
      match ← bothOf (numericOf context operand) texts with
      | some (xs, ys) => pure (some (.flags (List.zipWith kind.test xs ys)))
      | none =>
          if kind = .equals ∨ kind = .differs then
            match ← bothOf operand texts with
            | some (x, y) => pure (textEquality context kind x y)
            | none => pure none
          else pure none

/-- An operation at one split. -/
def operationAt (kind : Operation) (texts : Chars × Chars) : Outcome (Option (Value α)) := do
  match ← bothOf (numericOf context operand) texts with
  | some (xs, ys) => pure (some (.series (List.zipWith kind.apply xs ys)))
  | none => pure none

/-- An operation, split at the last occurrence of its symbol whose operands are both numeric. -/
def operation (kind : Operation) (text : Chars) : Outcome (Option (Value α)) :=
  firstOf () ((splits kind.symbol text).reverse.map fun texts _ =>
    operationAt context operand kind texts)

end Operands

section Calls

variable (context : Context α) (operand : Evaluator α)

/-- The series of a name some bars earlier. -/
def history (text : Chars) : Outcome (Option (Value α)) :=
  match history? text with
  | none => .ok none
  | some (name, count) =>
      let back : Outcome Int := match Decimal.integer count with
        | .ok n => .ok n
        | .error (.tooLong digits) => .error (.integerTooLong digits)
        | .error .malformed => .ok 0
      match context.env.value? (String.ofList name) with
      | some (.series values) => do
          pure (some (.series (Series.shift Arith.nan (← back) values)))
      | some (.flags values) => do
          pure (some (.flags (Series.shift false (← back) values)))
      | _ => .ok none

/-- A window length: the number of a name, or the number that the text itself is. -/
def windowOf (text : Option Chars) (default : Nat) : Outcome Nat :=
  match text with
  | none => .ok default
  | some text =>
      let name := String.ofList (trim text)
      match context.env.value? name with
      | some (.flag _) => .ok default
      | some (.number value) => (Scalar.real value).period default
      | _ => (Scalar.text name : Scalar α).period default

/-- A plain number: the number of a name, or the number that the text itself is unless it is zero or
undefined. -/
def plainOf (text : Option Chars) (default : α) : α :=
  match text with
  | none => default
  | some text =>
      match context.env.value? (String.ofList (trim text)) with
      | some (.number value) => value
      | _ => match Decimal.number? text with
        | some value => if Value.holds value then value else default
        | none => default

/-- The difference of averages; its source is the close if no argument names one. -/
def convergenceOf (arguments : List Chars) : Outcome (Option (Series.Convergence α)) := do
  match ← numericOf context operand (arguments[0]?.getD "close".toList) with
  | none => pure none
  | some xs =>
      let fast ← windowOf context arguments[1]? 12
      let slow ← windowOf context arguments[2]? 26
      let signal ← windowOf context arguments[3]? 9
      pure (some (Series.convergence fast slow signal xs))

/-- The bands; their source is the close if no argument names one. -/
def bandsOf (arguments : List Chars) : Outcome (Option (Series.Bands α)) := do
  match ← numericOf context operand (arguments[0]?.getD "close".toList) with
  | none => pure none
  | some xs =>
      let period ← windowOf context arguments[1]? 20
      pure (some (Series.bands period (plainOf context arguments[2]? (Arith.ofNat 2)) xs))

/-- The numeric series of a name. -/
def namedSeries (name : String) : Outcome (Option (Series α)) :=
  match context.env.value? name with
  | some value => value.numeric context.bars
  | none => .ok none

def averageRangeOf (arguments : List Chars) : Outcome (Option (Value α)) := do
  let high ← namedSeries context "high"
  let low ← namedSeries context "low"
  let close ← namedSeries context "close"
  match high, low, close with
  | some high, some low, some close =>
      let period ← windowOf context arguments[0]? 14
      pure (some (.series (Series.averageRange period high low close)))
  | _, _, _ => pure none

/-- The stochastic.  With two arguments or fewer, the highs and lows are those of the bars. -/
def stochasticOf (arguments : List Chars) : Outcome (Option (Value α)) := do
  let short := arguments.length ≤ 2
  let text (place : Nat) (name : String) : Chars :=
    if short then name.toList else arguments[place]?.getD []
  let source ← numericOf context operand (arguments[0]?.getD "close".toList)
  let high ← numericOf context operand (text 1 "high")
  let low ← numericOf context operand (text 2 "low")
  match source, high, low with
  | some source, some high, some low =>
      let period ← windowOf context (if short then arguments[1]? else arguments[3]?) 14
      pure (some (.series (Series.stochastic period source high low)))
  | _, _, _ => pure none

/-- A function of one series and a window length. -/
def windowFunction (builtin : Builtin) (period : Nat) (xs : Series α) :
    Option (Outcome (Series α)) :=
  match builtin with
  | .simple => some (.ok (Series.simple period xs))
  | .exponential => some (.ok (Series.exponential period xs))
  | .weighted => some (Series.weighted period xs)
  | .wilder => some (.ok (Series.wilder period xs))
  | .strength => some (.ok (Series.relativeStrength period xs))
  | .highest => some (.ok (Series.highest period xs))
  | .lowest => some (.ok (Series.lowest period xs))
  | _ => none

/-- A function of two series. -/
def pairFunction (builtin : Builtin) (xs ys : Series α) : Option (Value α) :=
  match builtin with
  | .crossover => some (.flags (Series.crossover xs ys))
  | .crossunder => some (.flags (Series.crossunder xs ys))
  | .larger => some (.series (List.zipWith Arith.maximum xs ys))
  | .smaller => some (.series (List.zipWith Arith.minimum xs ys))
  | _ => none

/-- What stands in for undefined values: the numeral of the second argument, or zero. -/
def fillOf (arguments : List Chars) : α :=
  match arguments[1]?.bind Decimal.scriptNumeral? with
  | some numeral => numeral.value
  | none => Arith.zero

/-- A function of its source and a window length, which is the second argument. -/
def windowCall (builtin : Builtin) (xs : Series α) (arguments : List Chars) :
    Outcome (Option (Value α)) := do
  let period ← windowOf context arguments[1]? 14
  match windowFunction builtin period xs with
  | none => pure none
  | some result => do pure (some (.series (← result)))

/-- A function of its source and a second series. -/
def pairCall (builtin : Builtin) (xs : Series α) (arguments : List Chars) :
    Outcome (Option (Value α)) := do
  match ← numericOf context operand (arguments[1]?.getD []) with
  | none => pure none
  | some ys => pure (pairFunction builtin xs ys)

/-- A series with a number in place of its undefined values. -/
def filled (fill : α) (xs : Series α) : Series α := xs.map fun x => if Arith.isNaN x then fill else x

/-- A call whose first argument is its source. -/
def sourceCall (builtin : Builtin) (arguments : List Chars) : Outcome (Option (Value α)) := do
  match ← numericOf context operand (arguments[0]?.getD []) with
  | none => pure none
  | some xs =>
      match builtin with
      | .absolute => pure (some (.series (xs.map Arith.abs)))
      | .defined => pure (some (.series (filled (fillOf arguments) xs)))
      | .crossover | .crossunder | .larger | .smaller =>
          pairCall context operand builtin xs arguments
      | _ => windowCall context builtin xs arguments

/-- The value of a call; the functions with three results give one of them. -/
def callValue (builtin : Builtin) (arguments : List Chars) : Outcome (Option (Value α)) := do
  match builtin with
  | .convergence =>
      let result ← convergenceOf context operand arguments
      pure (result.map fun lines => .series lines.line)
  | .bands =>
      let result ← bandsOf context operand arguments
      pure (result.map fun lines => .series lines.basis)
  | .averageRange => averageRangeOf context arguments
  | .stochastic => stochasticOf context operand arguments
  | _ => sourceCall context operand builtin arguments

def callOf (text : Chars) : Outcome (Option (Value α)) :=
  match call? text with
  | none => .ok none
  | some call => match Builtin.ofName? call.name with
    | none => .ok none
    | some builtin => callValue context operand builtin call.arguments

end Calls

/-- A text, a numeral, a truth value or a name. -/
def atom (context : Context α) (text : Chars) : Outcome (Option (Value α)) :=
  match textLiteral? text with
  | some content => .ok (some (.text (String.ofList content)))
  | none => match Decimal.scriptNumeral? text with
    | some numeral => .ok (some (.number numeral.value))
    | none =>
        if text = "true".toList then .ok (some (.flag true))
        else if text = "false".toList then .ok (some (.flag false))
        else if isIdentifier text then .ok (context.env.value? (String.ofList text))
        else .ok none

/-- The constructs from the loosest binding to the tightest. -/
def constructs (context : Context α) (operand : Evaluator α) : List (Evaluator α) :=
  [ternary context operand] ++
    Junction.disjunction.symbols.map (junction context operand .disjunction) ++
    Junction.conjunction.symbols.map (junction context operand .conjunction) ++
    [negation context operand] ++
    Comparison.all.map (comparison context operand) ++
    Operation.all.map (operation context operand) ++
    [history context, callOf context operand, atom context]

/-- One level of evaluation: brackets around the whole text are dropped, else the constructs are
tried. -/
def step (context : Context α) (operand : Evaluator α) (text : Chars) :
    Outcome (Option (Value α)) :=
  let inner := trim text
  if inner.isEmpty then .ok none
  else if isWrapped inner then operand (inner.drop 1).dropLast
  else firstOf inner (constructs context operand)

/-- Evaluation of texts that are nested less deeply than a bound. -/
def evaluateWithin (context : Context α) : Nat → Evaluator α
  | 0 => fun _ => .error .tooDeep
  | depth + 1 => step context (evaluateWithin context depth)

/-- The value of a text, if it has one. -/
def evaluate? (context : Context α) (text : Chars) : Outcome (Option (Value α)) :=
  evaluateWithin context ((trim text).length + 1) text

/-- The value of a text; a text without one is a fault. -/
def evaluate (context : Context α) (text : Chars) : Outcome (Value α) := do
  match ← evaluate? context text with
  | some value => pure value
  | none => throw (.unresolved (String.ofList (trim text)))

/-- An evaluator for the arguments of a call that stands outside an expression.  A text that takes
the place of a missing argument is a name, so one level more than the longest argument needs is
enough. -/
def argumentEvaluator (context : Context α) (arguments : List Chars) : Evaluator α :=
  evaluateWithin context ((arguments.map List.length).foldl max 5 + 1)

/-- The three series of a function with three results. -/
def evaluateTriple? (context : Context α) (triple : Triple) (arguments : List Chars) :
    Outcome (Option (Series α × Series α × Series α)) := do
  let operand := argumentEvaluator context arguments
  match triple with
  | .convergence =>
      let result ← convergenceOf context operand arguments
      pure (result.map fun lines => (lines.line, lines.signal, lines.histogram))
  | .bands =>
      let result ← bandsOf context operand arguments
      pure (result.map fun lines => (lines.upper, lines.basis, lines.lower))

/-- The three series of a function with three results; arguments without a value are a fault. -/
def evaluateTriple (context : Context α) (triple : Triple) (arguments : List Chars) :
    Outcome (Series α × Series α × Series α) := do
  match ← evaluateTriple? context triple arguments with
  | some result => pure result
  | none => throw (.unresolved
      (triple.name ++ "(" ++ join ", " (arguments.map String.ofList) ++ ")"))

/-- The three series of a function given by its name; the others are a fault. -/
def evaluateNamed (context : Context α) (name : String) (arguments : List Chars) :
    Outcome (Series α × Series α × Series α) :=
  match Triple.ofName? name with
  | some triple => evaluateTriple context triple arguments
  | none => throw (.unresolved (name ++ " has a single output"))

end Backtest.Expr
