import Backtest.Arith
import Backtest.Text.Trim

/-!
# Reading numbers from text

Three grammars of numerals:

* a *whole* numeral: an optional sign and digits, where one underscore may stand between two digits;
* a *free* numeral: also with a point, an exponent, or one of the words for infinity and undefined;
* a *script* numeral: digits with an optional point and exponent, no underscores and no words.

Digits of every decimal digit system count, and the first two allow white space around the numeral.
-/

namespace Backtest.Decimal

open Text

/-- The number that a run of digits stands for. -/
def digitsValue (shown : Chars) : Nat :=
  shown.foldl (fun total c => total * 10 + (digitValue? c).getD 0) 0

/-- A numeral taken apart: `± coefficient * 10 ^ exponent`. -/
structure Numeral where
  negative : Bool
  coefficient : Nat
  exponent : Int
  deriving DecidableEq, Repr

/-- An optional sign; `true` stands for minus. -/
def takeSign : Chars → Bool × Chars
  | '-' :: rest => (true, rest)
  | '+' :: rest => (false, rest)
  | text => (false, text)

/-- The digits at the front of a text, and the rest. -/
def takeDigits (text : Chars) : Chars × Chars := text.span isDigit

def startsWithDigit : Chars → Bool
  | [] => false
  | c :: _ => isDigit c

/-- What follows a digit: more digits, each of them after one underscore at most. -/
def takeFurtherDigits : Chars → Chars × Chars
  | [] => ([], [])
  | c :: rest =>
      if isDigit c then
        let parts := takeFurtherDigits rest
        (c :: parts.1, parts.2)
      else if c == '_' && startsWithDigit rest then takeFurtherDigits rest
      else ([], c :: rest)

/-- The digits at the front of a text where a single underscore may stand between two of them. -/
def takeSpacedDigits (text : Chars) : Chars × Chars :=
  if startsWithDigit text then takeFurtherDigits text else ([], text)

/-- An exponent mark, an optional sign and digits; nothing is taken where one of them is missing. -/
def takeExponent (take : Chars → Chars × Chars) (text : Chars) : Int × Chars :=
  match text with
  | mark :: rest =>
      if mark = 'e' ∨ mark = 'E' then
        let sign := takeSign rest
        match take sign.2 with
        | ([], _) => (0, text)
        | (shown, others) =>
            let size : Int := digitsValue shown
            (if sign.1 then -size else size, others)
      else (0, text)
  | [] => (0, text)

/-- Digits with an optional point among them, before the exponent: the digits before the point,
those after it, and the rest. -/
def takeFraction (take : Chars → Chars × Chars) (text : Chars) : Chars × Chars × Chars :=
  let whole := take text
  match whole.2 with
  | '.' :: rest =>
      let part := take rest
      if whole.1.isEmpty && part.1.isEmpty then ([], [], text) else (whole.1, part.1, part.2)
  | rest => (whole.1, [], rest)

/-- A numeral at the front of a text, and the rest. -/
def takeNumeral? (take : Chars → Chars × Chars) (text : Chars) : Option (Numeral × Chars) :=
  let sign := takeSign text
  match takeFraction take sign.2 with
  | (whole, part, rest) =>
      if whole.isEmpty && part.isEmpty then none
      else
        let exponent := takeExponent take rest
        some (⟨sign.1, digitsValue (whole ++ part), exponent.1 - part.length⟩, exponent.2)

/-- A script numeral at the front of a text, and the rest. -/
def takeScriptNumeral? (text : Chars) : Option (Numeral × Chars) := takeNumeral? takeDigits text

/-- A text that is a script numeral and nothing else. -/
def scriptNumeral? (text : Chars) : Option Numeral :=
  match takeScriptNumeral? text with
  | some (numeral, []) => some numeral
  | _ => none

/-- The longest run of digits that is read as an integer. -/
def longestInteger : Nat := 4300

/-- Why a text is not read as an integer. -/
inductive IntegerFlaw where
  | malformed
  /-- The text is a numeral of too many digits. -/
  | tooLong (digits : Nat)

/-- White space that may stand around a numeral: all but the four separators U+001C to U+001F. -/
def isPadding (c : Char) : Bool := isBlank c && !(28 ≤ c.toNat && c.toNat ≤ 31)

/-- A text without the padding at its two ends. -/
def unpadded (text : Chars) : Chars :=
  ((text.dropWhile isPadding).reverse.dropWhile isPadding).reverse

/-- An integer with an optional sign.  Too many digits count before anything that follows them but
an underscore. -/
def integer (text : Chars) : Except IntegerFlaw Int :=
  let sign := takeSign (unpadded text)
  match takeSpacedDigits sign.2 with
  | ([], _) | (_, '_' :: _) => .error .malformed
  | (shown, rest) =>
      if longestInteger < shown.length then .error (.tooLong shown.length)
      else if rest.isEmpty then
        let size : Int := digitsValue shown
        .ok (if sign.1 then -size else size)
      else .error .malformed

def integer? (text : Chars) : Option Int := (integer text).toOption

variable {α : Type} [Arith α]

/-- The number nearest to a numeral. -/
def Numeral.value (numeral : Numeral) : α :=
  Arith.ofDecimal numeral.negative numeral.coefficient numeral.exponent

/-- A number in the free grammar. -/
def number? (text : Chars) : Option α :=
  let inner := unpadded text
  let sign := takeSign inner
  let word := String.ofList (sign.2.map Char.toLower)
  if word = "nan" then some Arith.nan
  else if word = "inf" ∨ word = "infinity" then
    some (if sign.1 then -Arith.infinity else Arith.infinity)
  else match takeNumeral? takeSpacedDigits inner with
    | some (numeral, []) => some numeral.value
    | _ => none

end Backtest.Decimal
