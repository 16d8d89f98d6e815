import Backtest.Text.Trim

/-!
# Splitting expression text

The grammar of expressions has no tokens: a text is split at an operator that stands outside quotes
and brackets.  `Nesting` is what a scan from the left knows about quotes and brackets; all splits
rest on it.
-/

namespace Backtest.Expr

open Text

/-- Where a scan stands: how many brackets are open, possibly less than none, and which quote. -/
structure Nesting where
  depth : Int
  quote : Option Char
  deriving DecidableEq

namespace Nesting

def start : Nesting := ⟨0, none⟩

/-- The nesting after a character, and whether the character stands on its own outside quotes and
brackets. -/
def step (state : Nesting) (c : Char) : Nesting × Bool :=
  match state.quote with
  | some quote => (if c = quote then ⟨state.depth, none⟩ else state, false)
  | none =>
      if isQuote c then (⟨state.depth, some c⟩, false)
      else if c = '(' ∨ c = '[' then (⟨state.depth + 1, none⟩, false)
      else if c = ')' ∨ c = ']' then (⟨state.depth - 1, none⟩, false)
      else (state, state.depth = 0)

end Nesting

/-- The characters that a longer operator is made of. -/
def isGuard (c : Char) : Bool := c == '=' || c == '<' || c == '>' || c == '!'

def startsGuarded : Chars → Bool
  | [] => false
  | c :: _ => isGuard c

/-- An operator stands at the front of `here`.  An operator of one character does not stand next to
a character that could belong to a longer one; `before` is the text before it, the latest first. -/
def standsHere (op before here : Chars) : Bool :=
  op.isPrefixOf here &&
    !(op.length == 1 && (startsGuarded before || startsGuarded (here.drop 1)))

/-- The splits of the rest of a text, given the nesting and the text before it. -/
def splitsFrom (op : Chars) (state : Nesting) (before : Chars) : Chars → List (Chars × Chars)
  | [] => []
  | c :: rest =>
      let next := state.step c
      let later := splitsFrom op next.1 (c :: before) rest
      if next.2 && standsHere op before (c :: rest) then
        let left := trim before.reverse
        let right := trim ((c :: rest).drop op.length)
        if left.isEmpty || right.isEmpty then later else (left, right) :: later
      else later

/-- All splits of a text at an operator outside quotes and brackets, from left to right.  Both sides
are trimmed, and neither is empty. -/
def splits (op text : Chars) : List (Chars × Chars) := splitsFrom op Nesting.start [] text

/-- The leftmost split. -/
def firstSplit (op text : Chars) : Option (Chars × Chars) := (splits op text).head?

/-- The rightmost split. -/
def lastSplit (op text : Chars) : Option (Chars × Chars) := (splits op text).getLast?

/-- The arguments of the rest of a text; `before` holds the open argument, the latest first. -/
def argumentsFrom (state : Nesting) (before : Chars) : Chars → List Chars
  | [] =>
      let last := trim before.reverse
      if last.isEmpty then [] else [last]
  | c :: rest =>
      let next := state.step c
      if next.2 && c == ',' then trim before.reverse :: argumentsFrom next.1 [] rest
      else argumentsFrom next.1 (c :: before) rest

/-- The pieces of a text between commas outside quotes and brackets, trimmed.  Nothing after the
last comma is no argument. -/
def arguments (text : Chars) : List Chars := argumentsFrom Nesting.start [] text

/-- The bracket that was opened last before a text is closed by the last character of it.  Only
round brackets count; `depth` is the number of them that are open. -/
def closesFrom (depth : Nat) (quote : Option Char) : Chars → Bool
  | [] => false
  | c :: rest =>
      match quote with
      | some mark => closesFrom depth (if c = mark then none else quote) rest
      | none =>
          if isQuote c then closesFrom depth (some c) rest
          else if c = '(' then closesFrom (depth + 1) none rest
          else if c = ')' then
            if depth ≤ 1 then rest.isEmpty else closesFrom (depth - 1) none rest
          else closesFrom depth none rest

/-- The first character opens a bracket that the last one closes. -/
def isWrapped : Chars → Bool
  | '(' :: rest => closesFrom 1 none rest
  | _ => false

/-- A call by its name and its arguments. -/
structure Call where
  name : String
  arguments : List Chars
  deriving DecidableEq

def isNameStart (c : Char) : Bool := c.isAlpha || c == '_'

/-- An identifier: a letter or an underscore, then characters of a name. -/
def isIdentifier : Chars → Bool
  | [] => false
  | c :: rest => isNameStart c && rest.all isWord

/-- The name of a call, which may hold points. -/
def isCallName : Chars → Bool
  | [] => false
  | c :: rest => isNameStart c && rest.all fun c => isWord c || c == '.'

/-- A text that is one call and nothing else. -/
def call? (text : Chars) : Option Call :=
  match cutAt '(' text with
  | none => none
  | some (before, inner) =>
      let name := trim before
      if isWrapped ('(' :: inner) && isCallName name then
        some ⟨String.ofList name, arguments inner.dropLast⟩
      else none

/-- The content of a text that starts and ends with the same quote. -/
def textLiteral? : Chars → Option Chars
  | [] => none
  | c :: rest => if isQuote c && rest.getLast? == some c then some rest.dropLast else none

/-- A name and the number of bars in the brackets after it. -/
def history? (text : Chars) : Option (Chars × Chars) :=
  match text.span isWord with
  | ([], _) => none
  | (name, '[' :: rest) =>
      match rest.span isDigit with
      | ([], _) => none
      | (count, [']']) => some (name, count)
      | _ => none
  | _ => none

end Backtest.Expr
