import Backtest.Text.Trim

/-!
# Quoted text in messages

A text that a message quotes stands between single quotes, or between double quotes if it holds a
single quote and no double one.  The backslash, the quote in use and whatever is not visible are
written as escapes, so that the message stays on one line.
-/

namespace Backtest.Text

/-- The lower-case hexadecimal digits of a number, filled with zeros up to a width. -/
def hexadecimal (width n : Nat) : Chars :=
  let shown := Nat.toDigits 16 n
  List.replicate (width - shown.length) '0' ++ shown

/-- A character inside quotes of the given kind. -/
def escaped (quote c : Char) : Chars :=
  if c = quote ∨ c = '\\' then ['\\', c]
  else if c = '\n' then ['\\', 'n']
  else if c = '\r' then ['\\', 'r']
  else if c = '\t' then ['\\', 't']
  else if isPrintable c then [c]
  else if c.toNat < 0x100 then '\\' :: 'x' :: hexadecimal 2 c.toNat
  else if c.toNat < 0x10000 then '\\' :: 'u' :: hexadecimal 4 c.toNat
  else '\\' :: 'U' :: hexadecimal 8 c.toNat

/-- The quote that a text is shown in. -/
def quoteFor (text : Chars) : Char :=
  if text.contains '\'' && !text.contains '"' then '"' else '\''

def quoted (text : String) : String :=
  let cs := text.toList
  let quote := quoteFor cs
  String.ofList (quote :: cs.flatMap (escaped quote) ++ [quote])

/-- The first characters of a quoted text, so that a message stays short; the closing quote may be
missing. -/
def quotedStart (count : Nat) (text : String) : String :=
  String.ofList ((quoted text).toList.take count)

end Backtest.Text
