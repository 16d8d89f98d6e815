import Backtest.Command.Refusal

/-!
# Words of the command line

Each word is an option, a plain word, or the divider after which all words are plain.  An option may
be spelled by its letter, by its long spelling, or by the first letters of its long spelling if no
other option begins with them.  A value may stand in the word itself: behind an equals sign, or
right behind a letter.
-/

namespace Backtest.Command

open Text

/-- A text in the word of its option: behind the equals sign of a long spelling, or behind a letter,
with or without an equals sign between. -/
inductive Attached where
  | assigned (value : Chars)
  | joined (value : Chars)
  deriving DecidableEq

def Attached.value : Attached → Chars
  | .assigned value | .joined value => value

inductive Role where
  | plain
  | divider
  /-- It looks like an option, but there is none. -/
  | unknown
  | option (key : Key) (attached : Option Attached)
  deriving DecidableEq

/-- The word that divides the options from plain words. -/
def divider : String := "--"

/-- A text without a line feed at its end. -/
def withoutLastLineFeed (text : Chars) : Chars :=
  if text.getLast? = some '\n' then text.dropLast else text

/-- Digits, perhaps behind a minus sign and with a point before the last of them. -/
def isNegativeNumeral (word : Chars) : Bool :=
  match word with
  | '-' :: rest =>
      let rest := withoutLastLineFeed rest
      match cutAt '.' rest with
      | some (whole, part) => whole.all isDigit && !part.isEmpty && part.all isDigit
      | none => !rest.isEmpty && rest.all isDigit
  | _ => false

/-- The options that a word with two dashes may be short for. -/
def abbreviated (keys : List Key) (word : Chars) : List (Key × Option Attached) :=
  let (spelling, attached) := match cutAt '=' word with
    | some (spelling, value) => (spelling, some (Attached.assigned value))
    | none => (word, none)
  (keys.filter fun key => spelling.isPrefixOf key.long.toList).map fun key => (key, attached)

/-- The options that a word may stand for although it is none of their spellings. -/
def candidates (keys : List Key) : Chars → List (Key × Option Attached)
  | '-' :: '-' :: rest => abbreviated keys ('-' :: '-' :: rest)
  | '-' :: letter :: rest =>
      ((Key.lettered? keys letter).map fun key => (key, some (Attached.joined rest))).toList
  | _ => []

/-- The option of a word that gives its value behind an equals sign. -/
def assigned? (keys : List Key) (word : Chars) : Option Role := do
  let (spelling, value) ← cutAt '=' word
  let key ← Key.spelled? keys (String.ofList spelling)
  let isLong := String.ofList spelling == key.long
  pure (.option key (some (if isLong then .assigned value else .joined value)))

/-- The role of a word that is not the divider. -/
def roleOf (keys : List Key) (word : String) : Except Complaint Role :=
  let text := word.toList
  if text.head? ≠ some '-' then .ok .plain
  else match Key.spelled? keys word with
    | some key => .ok (.option key none)
    | none =>
        if text.length = 1 then .ok .plain
        else match assigned? keys text with
          | some role => .ok role
          | none => match candidates keys text with
            | [(key, attached)] => .ok (.option key attached)
            | [] => .ok (if isNegativeNumeral text || text.contains ' ' then .plain else .unknown)
            | several => .error (.ambiguous word (several.map fun entry => entry.1.long))

/-- The words of a command line with their roles. -/
def roles (keys : List Key) : List String → Except Complaint (List (String × Role))
  | [] => .ok []
  | word :: rest =>
      if word = divider then .ok ((word, .divider) :: rest.map fun later => (later, .plain))
      else do
        let role ← roleOf keys word
        pure ((word, role) :: (← roles keys rest))

/-- Why reading stops before the end of the words. -/
inductive Halt where
  | help
  | complaint (complaint : Complaint)

/-- What comes of a text behind the letter of an option that takes no value.  Its characters are
letters of further options, of which the last may take a value: what is left of the word, or else
the next word if that is plain.  The option for help is the only one of a letter without a value, so
that it is among them. -/
def haltOfLetters (keys : List Key) (plainFollows : Bool) (key : Key) : Chars → Halt
  | [] => .complaint (.unwantedValue key "")
  | c :: rest => match Key.lettered? keys c with
    | none => .complaint (.unwantedValue key (String.ofList (c :: rest)))
    | some next =>
        if next.takesValue then
          if rest.isEmpty && !plainFollows then .complaint (.missingValue next) else .help
        else if rest.isEmpty then .help
        else haltOfLetters keys plainFollows next rest

/-- What comes of a text in the word of an option that takes no value. -/
def haltOfText (keys : List Key) (plainFollows : Bool) (key : Key) : Attached → Halt
  | .assigned value => .complaint (.unwantedValue key (String.ofList value))
  | .joined letters => haltOfLetters keys plainFollows key letters

def plainFollows : List (String × Role) → Bool
  | (_, .plain) :: _ => true
  | _ => false

variable {σ : Type}

/-- Uses the options of some words in order, and gives back the words that belong to no option. -/
def useOptions (keys : List Key) (use : Key → String → σ → Except Complaint σ) :
    List (String × Role) → σ → Except Halt (σ × List String)
  | [], state => .ok (state, [])
  | (word, .option key attached) :: rest, state =>
      let step (value : String) : Except Halt σ := (use key value state).mapError .complaint
      match key.takesValue, attached with
      | true, some found => do
          useOptions keys use rest (← step (String.ofList found.value))
      | true, none => match rest with
        | (value, .plain) :: others => do useOptions keys use others (← step value)
        | _ => .error (.complaint (.missingValue key))
      | false, some found => .error (haltOfText keys (plainFollows rest) key found)
      | false, none =>
          if key = .help then .error .help
          else do useOptions keys use rest (← step word)
  | (word, _) :: rest, state => do
      let (last, others) ← useOptions keys use rest state
      pure (last, word :: others)

/-- The task of a command line, the words behind it, and the unknown options before it. -/
def taskOf (keys : List Key) : List (String × Role) → Except Halt (Task × List String × List String)
  | [] => .error (.complaint .missingTask)
  | (word, .plain) :: rest => match Task.ofName? word with
    | some task => .ok (task, rest.map (·.1), [])
    | none => .error (.complaint (.unknownTask word))
  | (word, .divider) :: rest =>
      .error (.complaint (if rest.isEmpty then .missingTask else .unknownTask word))
  | (word, .unknown) :: rest => do
      let (task, behind, before) ← taskOf keys rest
      pure (task, behind, word :: before)
  | (_, .option key (some found)) :: rest => .error (haltOfText keys (plainFollows rest) key found)
  | (_, .option _ none) :: _ => .error .help

end Backtest.Command
