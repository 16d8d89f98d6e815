import Backtest.Text.Character

/-!
# Trimming, searching and cutting text

Small operations on a text as a list of characters.
-/

namespace Backtest.Text

def trimLeft (text : Chars) : Chars := text.dropWhile isBlank

def trimRight (text : Chars) : Chars := (text.reverse.dropWhile isBlank).reverse

/-- A text without the white space at its two ends. -/
def trim (text : Chars) : Chars := trimRight (trimLeft text)

def trimString (text : String) : String := String.ofList (trim text.toList)

/-- What follows `start` in a text that begins with it. -/
def after? (start text : Chars) : Option Chars :=
  if start.isPrefixOf text then some (text.drop start.length) else none

/-- Tests whether a text contains another one. -/
def contains (part : Chars) : Chars → Bool
  | [] => part.isEmpty
  | c :: rest => part.isPrefixOf (c :: rest) || contains part rest

/-- The parts of a text before and after the first occurrence of a character. -/
def cutAt (mark : Char) (text : Chars) : Option (Chars × Chars) :=
  match text.dropWhile (· != mark) with
  | [] => none
  | _ :: rest => some (text.takeWhile (· != mark), rest)

/-- The pieces between the occurrences of a character. -/
def pieces (mark : Char) : Chars → List Chars
  | [] => [[]]
  | c :: rest =>
      if c = mark then [] :: pieces mark rest
      else match pieces mark rest with
        | [] => [[c]]
        | first :: others => (c :: first) :: others

/-- Texts one after the other with a separator between them. -/
def join (separator : String) (texts : List String) : String := separator.intercalate texts

def toLowerAscii (text : String) : String := text.map Char.toLower

/-- The first character is none of a name: a name that ends here is a whole word. -/
def endsWord : Chars → Bool
  | [] => true
  | c :: _ => !isWord c

end Backtest.Text
