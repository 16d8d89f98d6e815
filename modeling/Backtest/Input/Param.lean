import Backtest.Input.Declaration
import Backtest.Script.Reading

/-!
# Declared parameters

What the arguments of an input declaration say about its parameter, and what a whole script
declares: its parameters, its title and the family of rules that it looks like.
-/

namespace Backtest.Input

open Text Decimal

/-- The names of arguments that are given by position. -/
def positionalKeys : List String :=
  ["defval", "title", "type", "minval", "maxval", "step", "options"]

/-- An argument of the form `key = value`. -/
def keyword? (text : Chars) : Option (String × Chars) :=
  let name := text.takeWhile isWord
  match trimLeft (text.dropWhile isWord) with
  | '=' :: rest =>
      if name.isEmpty || rest.head? == some '=' then none
      else some (String.ofList name, trim rest)
  | _ => none

/-- The arguments of a declaration by key.  A keyword counts before a position, and the last one of
a name counts. -/
def argumentRecord (text : Chars) : Record Chars :=
  let parts := Expr.arguments text
  let named := Record.ofEntries (parts.filterMap keyword?)
  let placed := parts.filter fun part => (keyword? part).isNone
  (positionalKeys.zip placed).foldl
    (fun found entry => if found.has entry.1 then found else found.put entry.1 entry.2) named

/-- A text without the white space around it and one quote at each end. -/
def cleanText (text : Chars) : Chars :=
  let inner := trim text
  let front := match inner with
    | c :: rest => if isQuote c then rest else c :: rest
    | [] => []
  trim (match front.getLast? with
    | some c => if isQuote c then front.dropLast else front
    | none => [])

variable {α : Type} [Arith α]

/-- The number that a text begins with. -/
def leadingNumber? (text : Chars) : Option α :=
  (takeScriptNumeral? (trimLeft text)).map fun entry => entry.1.value

structure Param (α : Type) where
  name : String
  title : String
  kind : InputKind
  default : Scalar α
  least : Option α
  greatest : Option α
  step : Option α
  options : Option (List String)

/-- The default that a declaration gives.  A text that begins with no number counts as zero, and a
whole number of an integer input is an integer. -/
def defaultOf (kind : InputKind) (text : Chars) : Scalar α :=
  match kind with
  | .bool => .flag (text.map Char.toLower == "true".toList)
  | .string | .source => .text (String.ofList (cleanText text))
  | .int | .float =>
      match (leadingNumber? text : Option α) with
      | none => .int 0
      | some value =>
          if kind = .int ∧ Arith.isWhole value = true then .int ((Arith.floor? value).getD 0)
          else .real value

/-- The content of the first square brackets that hold anything. -/
def bracketed? : Chars → Option Chars
  | [] => none
  | c :: rest =>
      match c, cutAt ']' rest with
      | '[', some (d :: inner, _) => some (d :: inner)
      | _, _ => bracketed? rest

/-- An argument that is there and not empty. -/
def filled? (found : Record Chars) (name : String) : Option Chars :=
  (found.get? name).filter fun text => !text.isEmpty

def optionsOf (found : Record Chars) : Option (List String) :=
  ((filled? found "options").bind bracketed?).map fun inner =>
    (pieces ',' inner).map fun piece => String.ofList (cleanText piece)

/-- The parameter of a declaration.  Without a kind the input is a number. -/
def Param.ofDeclaration (declaration : Declaration) : Param α :=
  let kind := declaration.kind.getD .float
  let found := argumentRecord declaration.arguments
  let number (key : String) : Option α := (found.get? key).bind leadingNumber?
  { name := String.ofList declaration.name
    title := match filled? found "title" with
      | some text => String.ofList (cleanText text)
      | none => String.ofList declaration.name
    kind := kind
    default := defaultOf kind ((found.get? "defval").getD [])
    least := number "minval"
    greatest := number "maxval"
    step := number "step"
    options := optionsOf found }

/-- The parameters that a script declares, in order. -/
def params (code : Chars) : List (Param α) := (declarations code).map Param.ofDeclaration

/-- The defaults of some parameters by name. -/
def defaults (params : List (Param α)) : Params α :=
  Record.ofEntries (params.map fun param => (param.name, param.default))

/-- The defaults that a script runs with; a source input is an assignment of the script itself. -/
def scriptDefaults (code : Chars) : Params α :=
  defaults ((params code).filter fun param => param.kind ≠ .source)

/-- The families of rules that a script can look like. -/
inductive Logic where
  | strength
  | bands
  | convergence
  | tripleAverage
  | dualAverage
  | custom
  deriving DecidableEq

def Logic.name : Logic → String
  | .strength => "rsi"
  | .bands => "bollinger"
  | .convergence => "macd"
  | .tripleAverage => "triple_ma"
  | .dualAverage => "dual_ma"
  | .custom => "custom"

/-- A text in lower case, as far as it then holds ASCII letters. -/
def lowered (text : Chars) : Chars :=
  text.flatMap fun c =>
    if c.toNat = 0x130 then ['i', Char.ofNat 0x307]
    else if c.toNat = 0x212A then ['k']
    else [c.toLower]

/-- The name of a parameter suggests the length of an average. -/
def namesPeriod (name : String) : Bool :=
  ["len", "per", "ma", "fast", "mid", "slow"].any fun part => Script.mentions part name.toList

/-- The family of rules that a script looks like, from the functions that it mentions. -/
def logicOf (code : Chars) (params : List (Param α)) : Logic :=
  let text := lowered code
  let mentions (part : String) : Bool := contains part.toList text
  if mentions "ta.rsi" || mentions "rsi(" then .strength
  else if mentions "ta.bb(" || mentions "bollinger" then .bands
  else if mentions "ta.macd" || mentions "macd" then .convergence
  else if ["ta.sma", "ta.ema", "crossover", "ta.wma"].any mentions then
    let periods := params.filter fun param => param.kind.isNumeric && namesPeriod param.name
    if 3 ≤ periods.length then .tripleAverage else .dualAverage
  else .custom

/-- The title at the front of a text that begins with a strategy declaration. -/
def titleHere? (text : Chars) : Option Chars :=
  match (Script.afterOpening? "strategy" text).map trimLeft with
  | some (mark :: rest) =>
      if isQuote mark then
        match rest.span fun c => !isQuote c with
        | (d :: title, _ :: _) => some (d :: title)
        | _ => none
      else none
  | _ => none

/-- The title of the first strategy declaration that has one. -/
def title? : Chars → Option Chars
  | [] => none
  | c :: rest => match titleHere? (c :: rest) with
    | some title => some title
    | none => title? rest

/-- What a script declares. -/
structure Strategy (α : Type) where
  params : List (Param α)
  title : String
  isValid : Bool
  logic : Logic

/-- What a script declares; it is valid if it has a parameter or a strategy declaration. -/
def Strategy.ofCode (code : String) : Strategy α :=
  let text := code.toList
  let found : List (Param α) := Input.params text
  { params := found
    title := ((title? text).map String.ofList).getD "Custom Strategy"
    isValid := !found.isEmpty || contains "strategy(".toList text
    logic := logicOf text found }

end Backtest.Input
