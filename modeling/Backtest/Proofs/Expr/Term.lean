import Backtest.Expr.Evaluate
import Backtest.Proofs.Expr.Call
import Backtest.Proofs.Expr.Sentence

/-!
# Terms

The abstract syntax of expressions, how a term is printed, and what it means.

A term is printed as a sentence.  Brackets stand only around operands that would come apart
otherwise: around an operand that binds more loosely than its operator, around the right operand of
an operation that binds equally, around a comparison in a comparison, and around a choice in the
first two places of a choice.

The meaning of a term is built up from those of its parts; a term means nothing where a part has no
value of the kind that is needed there.
-/

namespace Backtest.Expr

open Text

/-! ## Tokens -/

/-- An unsigned decimal numeral. -/
structure NumeralToken where
  text : Chars
  numeral : Decimal.Numeral
  reads : Decimal.scriptNumeral? text = some numeral
  unsigned : '+' ∉ text ∧ '-' ∉ text

/-- The operators that are written with letters. -/
def operatorWords : List Chars := ["or".toList, "and".toList, "not".toList]

/-- The words that are no names. -/
def reservedWords : List Chars := operatorWords ++ ["true".toList, "false".toList]

/-- A name. -/
structure NameToken where
  text : Chars
  identifier : isIdentifier text = true
  unreserved : text ∉ reservedWords

def NameToken.string (token : NameToken) : String := String.ofList token.text

/-- A count of bars, of as many digits as an integer may have. -/
structure CountToken where
  text : Chars
  digits : ∀ c ∈ text, isDigit c = true
  nonempty : text ≠ []
  short : text.length ≤ Decimal.longestInteger

/-- A text in quotes that holds no quotes itself. -/
structure TextToken where
  mark : Char
  content : Chars
  quote : isQuote mark = true
  unquoted : ∀ c ∈ content, isQuote c = false

/-- The syntax of expressions. -/
inductive Term where
  | numeral (token : NumeralToken)
  | name (token : NameToken)
  | truth (value : Bool)
  | text (token : TextToken)
  | history (name : NameToken) (count : CountToken)
  | call (builtin : Builtin) (arguments : List Term)
  | operation (kind : Operation) (left right : Term)
  | comparison (kind : Comparison) (left right : Term)
  | negation (operand : Term)
  | junction (kind : Junction) (left right : Term)
  | choice (condition first second : Term)

/-! ## Printing -/

namespace Term

/-- The operator at the root of a term. -/
def root? : Term → Option Mark
  | .operation kind _ _ => some (.operation kind)
  | .comparison kind _ _ => some (.comparison kind)
  | .negation _ => some .negation
  | .junction kind _ _ => some (.junction kind)
  | .choice _ _ _ => some .question
  | _ => none

/-- How tightly the root of a term binds; what has no operator binds more tightly than any. -/
def level (term : Term) : Nat := (term.root?.map Mark.level).getD 9

end Term

/-- A sentence in brackets. -/
def bracketed (words : List Word) : Chars := '(' :: (spell words ++ [')'])

/-- The words of an operand, in brackets if it binds more loosely than a bound. -/
def grouped (floor level : Nat) (words : List Word) : List Word :=
  if level < floor then [.atom (bracketed words)] else words

namespace Term

mutual

/-- The words that a term is printed with. -/
def words : Term → List Word
  | .numeral token => [.atom token.text]
  | .name token => [.atom token.text]
  | .truth value => [.atom (if value then "true".toList else "false".toList)]
  | .text token => [.atom (token.mark :: (token.content ++ [token.mark]))]
  | .history token count => [.atom (token.text ++ '[' :: (count.text ++ [']']))]
  | .call builtin arguments => [.atom (callText builtin.name.toList (texts arguments))]
  | .operation kind left right =>
      let floor := (Mark.operation kind).level
      grouped floor left.level left.words ++
        .mark (.operation kind) :: grouped (floor + 1) right.level right.words
  | .comparison kind left right =>
      let floor := (Mark.comparison kind).level + 1
      grouped floor left.level left.words ++
        .mark (.comparison kind) :: grouped floor right.level right.words
  | .negation inner => .mark .negation :: grouped Mark.negation.level inner.level inner.words
  | .junction kind left right =>
      let floor := (Mark.junction kind).level
      grouped floor left.level left.words ++
        .mark (.junction kind) :: grouped floor right.level right.words
  | .choice condition first second =>
      grouped 1 condition.level condition.words ++ .mark .question ::
        (grouped 1 first.level first.words ++ .mark .colon :: second.words)

/-- The texts of the arguments of a call. -/
def texts : List Term → List Chars
  | [] => []
  | term :: rest => spell term.words :: texts rest

end

/-- The text of a term. -/
def print (term : Term) : Chars := spell term.words

end Term

/-! ## Meaning -/

/-- Every name that has a value is an identifier. -/
def Named {α : Type} (env : Environment α) : Prop :=
  ∀ entry ∈ env, isIdentifier entry.1.toList = true

instance {α : Type} (env : Environment α) : Decidable (Named env) :=
  inferInstanceAs (Decidable (∀ entry ∈ env, isIdentifier entry.1.toList = true))

section Meaning

variable {α : Type} [Arith α] (context : Context α)

/-- The numeric series of a value, if it stands for one. -/
def numbers? (value : Value α) : Option (Series α) :=
  match value.numeric context.bars with
  | .ok result => result
  | .error _ => none

/-- What a comparison gives: a test bar by bar if both sides are numeric, else one of texts. -/
def compared (kind : Comparison) (x y : Value α) : Option (Value α) :=
  match x.numeric context.bars, y.numeric context.bars with
  | .ok (some xs), .ok (some ys) => some (.flags (List.zipWith kind.test xs ys))
  | .ok _, .ok _ => textEquality context kind x y
  | _, _ => none

/-- What a choice gives for the values of its branches, if they are of one kind. -/
def chosen (condition x y : Value α) : Option (Value α) := do
  let flags ← condition.truth context.bars
  match pick context flags (some x) (some y) with
  | .ok result => result
  | .error _ => none

/-- What a name stands for some bars earlier, if it is a series. -/
def earlier (name : NameToken) (count : CountToken) : Option (Value α) :=
  match context.env.value? name.string with
  | some (.series xs) => some (.series (Series.shift Arith.nan (Decimal.digitsValue count.text) xs))
  | some (.flags flags) => some (.flags (Series.shift false (Decimal.digitsValue count.text) flags))
  | _ => none

/-- The window length that a number stands for, or a default. -/
def windowOr (default : Nat) (x : α) : Nat := (Scalar.windowLength x).getD default

/-- The window length at a place of a call: a numeral, or the name of a number. -/
def periodAt (arguments : List Term) (place default : Nat) : Option Nat :=
  match arguments[place]? with
  | none => some default
  | some (.numeral token) => some (windowOr default (token.numeral.value : α))
  | some (.name token) => match context.env.value? token.string with
      | some (.number x) => some (windowOr default x)
      | _ => none
  | some _ => none

/-- What stands in for undefined values: the numeral that a call names, or zero. -/
def fillAt (arguments : List Term) (place : Nat) : Option α :=
  match arguments[place]? with
  | none => some Arith.zero
  | some (.numeral token) => some token.numeral.value
  | some _ => none

/-- The numeric series at a place of a call; a name may stand for a missing one. -/
def sourceAt (values : List (Option (Value α))) (place : Nat) (missing : Option String) :
    Option (Series α) :=
  (values[place]?.getD (missing.bind context.env.value?)).bind (numbers? context)

/-- What a call gives for its arguments and their values. -/
def called (builtin : Builtin) (arguments : List Term) (values : List (Option (Value α))) :
    Option (Value α) := do
  match builtin with
  | .convergence =>
      let xs ← sourceAt context values 0 (some "close")
      let fast ← periodAt context arguments 1 12
      let slow ← periodAt context arguments 2 26
      let signal ← periodAt context arguments 3 9
      some (.series (Series.convergence fast slow signal xs).line)
  | .bands =>
      let xs ← sourceAt context values 0 (some "close")
      let period ← periodAt context arguments 1 20
      some (.series (Series.simple period xs))
  | .averageRange =>
      let high ← sourceAt context [] 0 (some "high")
      let low ← sourceAt context [] 0 (some "low")
      let close ← sourceAt context [] 0 (some "close")
      let period ← periodAt context arguments 0 14
      some (.series (Series.averageRange period high low close))
  | .stochastic =>
      let source ← sourceAt context values 0 (some "close")
      if arguments.length ≤ 2 then
        let high ← sourceAt context [] 0 (some "high")
        let low ← sourceAt context [] 0 (some "low")
        let period ← periodAt context arguments 1 14
        some (.series (Series.stochastic period source high low))
      else
        let high ← sourceAt context values 1 none
        let low ← sourceAt context values 2 none
        let period ← periodAt context arguments 3 14
        some (.series (Series.stochastic period source high low))
  | .absolute =>
      let xs ← sourceAt context values 0 none
      some (.series (xs.map Arith.abs))
  | .defined =>
      let xs ← sourceAt context values 0 none
      let fill ← fillAt arguments 1
      some (.series (filled fill xs))
  | .crossover | .crossunder | .larger | .smaller =>
      let xs ← sourceAt context values 0 none
      let ys ← sourceAt context values 1 none
      pairFunction builtin xs ys
  | _ =>
      let xs ← sourceAt context values 0 none
      let period ← periodAt context arguments 1 14
      match windowFunction builtin period xs with
      | some (.ok ys) => some (.series ys)
      | _ => none

mutual

/-- The value of a term, built up from those of its parts. -/
def meaning : Term → Option (Value α)
  | .numeral token => some (.number token.numeral.value)
  | .name token => context.env.value? token.string
  | .truth value => some (.flag value)
  | .text token => some (.text (String.ofList token.content))
  | .history token count => earlier context token count
  | .call builtin arguments => called context builtin arguments (meanings arguments)
  | .operation kind left right => do
      let xs ← numbers? context (← meaning left)
      let ys ← numbers? context (← meaning right)
      some (.series (List.zipWith kind.apply xs ys))
  | .comparison kind left right => do
      compared context kind (← meaning left) (← meaning right)
  | .negation inner => do
      let flags ← (← meaning inner).truth context.bars
      some (.flags (flags.map (!·)))
  | .junction kind left right => do
      let p ← (← meaning left).truth context.bars
      let q ← (← meaning right).truth context.bars
      some (.flags (List.zipWith kind.apply p q))
  | .choice condition first second => do
      chosen context (← meaning condition) (← meaning first) (← meaning second)

/-- The values of the arguments of a call. -/
def meanings : List Term → List (Option (Value α))
  | [] => []
  | term :: rest => meaning term :: meanings rest

end

end Meaning

end Backtest.Expr
