import Backtest.Input.Param

/-!
# Writing new defaults

New values are written into the declarations of a script.  A default after `defval=` is replaced, or
else the one in the first position; all other text stays as it is.
-/

namespace Backtest.Input

open Text Decimal

variable {α : Type} [Arith α]

/-- A value as a script writes it: a whole number without a point. -/
def formatValue : Scalar α → Outcome String
  | .flag value => .ok (if value then "true" else "false")
  | .int value => do
      let _ : α ← Scalar.ofInt value
      pure (toString value)
  | .real value => .ok (match Arith.isWhole value, Arith.floor? value with
    | true, some n => toString n
    | _, _ => Arith.text value)
  | value => .ok value.toText

/-- The truth of a scalar: neither zero nor empty nor missing. -/
def truthOf : Scalar α → Bool
  | .flag value => value
  | .int value => value ≠ 0
  | .real value => !Arith.same value Arith.zero
  | .text value => !value.isEmpty
  | .missing => false
  | .list items => !items.isEmpty

/-- The rest of a text behind a default of one kind. -/
abbrev Literal := Chars → Option Chars

/-- A plain numeral: an optional minus sign, then digits and points. -/
def numeralLiteral : Literal := fun text =>
  let body := match text with
    | '-' :: rest => rest
    | _ => text
  let isPart (c : Char) : Bool := isDigit c || c == '.'
  if (body.takeWhile isPart).isEmpty then none else some (body.dropWhile isPart)

/-- What follows a word in any case. -/
def afterFolded? (word : String) (text : Chars) : Option Chars :=
  if word.toList.isPrefixOf (text.map foldCase) then some (text.drop word.length) else none

/-- One of the two truth values in any case. -/
def truthLiteral : Literal := fun text =>
  (afterFolded? "true" text).orElse fun _ => afterFolded? "false" text

/-- A text between quotes. -/
def quotedLiteral : Literal := fun text =>
  match text with
  | mark :: rest =>
      if isQuote mark then
        match rest.dropWhile fun c => !isQuote c with
        | _ :: others => some others
        | [] => none
      else none
  | [] => none

/-- Replaces the first literal after `defval=`; `key?` recognises the word `defval`. -/
def replaceKeyword? (key? : Literal) (literal : Literal) (new : Chars) : Chars → Option Chars
  | [] => none
  | c :: rest =>
      let here : Option Chars := do
        let equals ← after? ['='] (trimLeft (← key? (c :: rest)))
        literal (trimLeft equals)
      match here with
      | some others => some ("defval=".toList ++ new ++ others)
      | none => (replaceKeyword? key? literal new rest).map (c :: ·)

/-- Replaces a literal at the front of the arguments; white space before it stays. -/
def replaceFirst? (literal : Literal) (new text : Chars) : Option Chars :=
  (literal (trimLeft text)).map fun others => text.takeWhile isBlank ++ new ++ others

/-- Writes a new default into the text of arguments.  The default in the first position is replaced
only if the one after `defval=` leaves the text as it was. -/
def updateArguments (key? : Literal) (literal : Literal) (new arguments : Chars) : Chars :=
  let updated := (replaceKeyword? key? literal new arguments).getD arguments
  if updated = arguments then (replaceFirst? literal new arguments).getD arguments else updated

/-- How the arguments of a declaration of some kind take a new value; source inputs take none. -/
def updater? (kind : InputKind) (value : Scalar α) : Outcome (Option (Chars → Chars)) :=
  let exactKey : Literal := after? "defval".toList
  match kind with
  | .int | .float => do
      let text ← formatValue value
      pure (some (updateArguments exactKey numeralLiteral text.toList))
  | .bool => do
      let text := if truthOf value then "true" else "false"
      pure (some (updateArguments (afterFolded? "defval") truthLiteral text.toList))
  | .string =>
      pure (some (updateArguments exactKey quotedLiteral ('"' :: value.toText.toList ++ ['"'])))
  | .source => pure none

/-- Updates the arguments of all declarations of a name. -/
def updateNamed (name : String) (update : Chars → Chars) (code : Chars) : Chars :=
  (segments (fun found => found == name.toList) code).flatMap fun segment => match segment with
    | .declaration found => (Segment.declaration { found with
        arguments := update found.arguments }).text
    | .verbatim text => text

/-- Writes the value of one parameter into a script. -/
def updateParam (values : Params α) (code : Chars) (param : Param α) : Outcome Chars :=
  match values.get? param.name with
  | none => .ok code
  | some value => do
      match ← updater? param.kind value with
      | some update => pure (updateNamed param.name update code)
      | none => pure code

/-- Writes values into the declarations of a script, parameter by parameter. -/
def updateCode (code : Chars) (params : List (Param α)) (values : Params α) : Outcome Chars :=
  params.foldlM (updateParam values) code

end Backtest.Input
