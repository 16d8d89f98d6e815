import Backtest.Expr.Split
import Backtest.Script.Line
import Backtest.Script.Statement

/-!
# Reading one line

What a single line says: a signal call, a destructuring, an assignment, or the head of a branch.
Input and strategy declarations and lines of no known form say nothing to the executor; a source
input binds its default series.
-/

namespace Backtest.Script

open Text Backtest.Expr

/-- What follows a word at the front of a text, if the word ends there. -/
def afterWord? (word : String) (text : Chars) : Option Chars :=
  match after? word.toList text with
  | some rest => if endsWord rest then some rest else none
  | none => none

/-- What follows a text and at least one blank after it. -/
def afterSpaced? (word : String) (text : Chars) : Option Chars :=
  match after? word.toList text with
  | some (c :: rest) => if isBlank c then some (trimLeft rest) else none
  | _ => none

/-- What follows a text and any blanks and an opening bracket after it. -/
def afterOpening? (word : String) (text : Chars) : Option Chars :=
  match (after? word.toList text).map trimLeft with
  | some ('(' :: rest) => some rest
  | _ => none

/-- The text of a condition without the decorations that may follow it: the word `then`, and a colon
or an opening brace. -/
def cleanCondition (text : Chars) : Chars :=
  let drop? (ending : String) (text : Chars) : Option Chars :=
    (after? ending.toList.reverse (trimRight text).reverse).map fun rest => trimRight rest.reverse
  let plain := (drop? "then" text).getD text
  trim (((drop? ":" plain).orElse fun _ => drop? "\x7b" plain).getD plain)

/-- The condition text of a line that starts an `if`. -/
def ifCondition? (text : Chars) : Option Chars := (afterWord? "if" text).map trimLeft

/-- The condition text of a line that continues a chain. -/
def elseIfCondition? (text : Chars) : Option Chars := (afterSpaced? "else" text).bind ifCondition?

/-- A line that starts the last part of a chain. -/
def isElse (text : Chars) : Bool :=
  match (after? "else".toList text).map trimLeft with
  | some rest => rest.isEmpty || rest == [':'] || rest == ['\x7b']
  | none => false

/-- The calls that give a signal. -/
inductive SignalCall where
  | entry
  | close
  | closeAll
  | exit
  deriving DecidableEq

def SignalCall.name : SignalCall → String
  | .entry => "strategy.entry"
  | .close => "strategy.close"
  | .closeAll => "strategy.close_all"
  | .exit => "strategy.exit"

def SignalCall.all : List SignalCall := [.entry, .closeAll, .close, .exit]

/-- A signal call opens at the front of a text. -/
def opensSignal (text : Chars) : Bool :=
  SignalCall.all.any fun call => (afterOpening? call.name text).isSome

/-- The text from the first signal call on. -/
def fromSignal? : Chars → Option Chars
  | [] => none
  | c :: rest => if opensSignal (c :: rest) then some (c :: rest) else fromSignal? rest

/-- A text without the quotes at its two ends. -/
def unquote (text : Chars) : Chars :=
  (((trim text).dropWhile isQuote).reverse.dropWhile isQuote).reverse

/-- A text contains a word in any case. -/
def mentions (word : String) (text : Chars) : Bool := contains word.toList (text.map foldCase)

/-- The kind of signal that a call asks for.  The second argument of an entry gives its direction,
and the label of a close says which side it closes. -/
def SignalCall.kind (call : SignalCall) (arguments : List Chars) (label : Chars) : SignalKind :=
  match call with
  | .entry =>
      if contains "strategy.short".toList (arguments[1]?.getD []) then .openShort else .openLong
  | .close => if mentions "short" label then .closeShort else .closeLong
  | .closeAll | .exit => .closeAny

/-- The signal call in a text. -/
def signal? (text : Chars) : Option (SignalKind × Option String) := do
  let call ← call? (trim (← fromSignal? text))
  let form ← SignalCall.all.find? fun form => form.name == call.name
  let label := call.arguments.head?.map unquote
  some (form.kind call.arguments (label.getD []), label.map String.ofList)

/-- The arguments of a call with the given name that ends a text. -/
def callArguments? (name : String) (text : Chars) : Option (List Chars) :=
  match afterOpening? name text with
  | some inner => if inner.getLast? = some ')' then some (arguments inner.dropLast) else none
  | none => none

/-- What follows the sign of an assignment; an equality sign is none. -/
def afterAssign? : Chars → Option Chars
  | ':' :: '=' :: rest => some rest
  | '=' :: rest => if rest.head? = some '=' then none else some rest
  | _ => none

/-- Up to three names in square brackets with an assignment sign, a function of three results and
its arguments after them. -/
def destructuring? (text : Chars) : Option (List String × Triple × List Chars) := do
  let inner ← after? ['['] text
  let (names, rest) ← cutAt ']' inner
  let names := (pieces ',' names).map trim
  if names.length ≤ 3 && names.all fun name => !name.isEmpty && name.all isWord then
    let target := trimLeft rest
    let right ← ((after? [':', '='] target).orElse fun _ => after? ['='] target).map trimLeft
    let (triple, arguments) ← [Triple.convergence, Triple.bands].findSome? fun triple =>
      (callArguments? triple.name right).map fun arguments => (triple, arguments)
    some (names.map String.ofList, triple, arguments)
  else none

/-- A name, an assignment sign and a text that is not empty. -/
def bareAssignment? (text : Chars) : Option (String × Chars) := do
  let (name, rest) := text.span isWord
  let right := trim (← afterAssign? (trimLeft rest))
  if name.isEmpty || right.isEmpty then none else some (String.ofList name, right)

/-- An assignment, with or without the words that declare its name; a word that is itself assigned
to is a name. -/
def assignment? (text : Chars) : Option (String × Chars) :=
  let scopes : List Chars :=
    (["var", "varip"].filterMap fun word => afterSpaced? word text) ++ [text]
  let starts : List Chars := scopes.flatMap fun rest =>
    (["int", "float", "bool", "string"].filterMap fun word => afterSpaced? word rest) ++ [rest]
  starts.findSome? bareAssignment?

/-- What a line without a condition says to the executor. -/
def simple? (line : Line) : Option Statement :=
  if (fromSignal? line.text).isSome then
    (signal? line.text).map fun (kind, label) => .signal line.number kind label
  else match destructuring? line.text with
    | some (names, triple, arguments) => some (.destructure line.number names triple arguments)
    | none => match assignment? line.text with
      | none => none
      | some (name, right) => match callArguments? "input.source" right with
        | some arguments =>
            arguments.head?.map fun expression => .assign line.number name expression
        | none =>
            if (afterWord? "input" right).isSome || (afterWord? "strategy" right).isSome then none
            else some (.assign line.number name right)

end Backtest.Script
