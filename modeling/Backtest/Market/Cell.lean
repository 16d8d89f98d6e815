import Backtest.Number
import Backtest.Prices

/-!
# Cells of a table

A table is written as text.  All cells of a column are read alike: as integers, as numbers or as
text, whatever the first cells of the column suggest.  An empty cell holds nothing, and a column
that begins with empty cells only counts as one of text.
-/

namespace Backtest.Market

open Text

inductive Cell (α : Type) where
  | empty
  | int (value : Int)
  | real (value : α)
  | text (value : String)

/-- How the cells of a column are read. -/
inductive ColumnKind where
  /-- Integers of 64 bits. -/
  | word
  /-- Integers, one of which needs more than 64 bits. -/
  | integer
  | number
  | text
  deriving DecidableEq

/-- A cell of digits, perhaps behind a minus sign. -/
def isWholeCell (text : Chars) : Bool :=
  let shown := match text with
    | '-' :: rest => rest
    | rest => rest
  !shown.isEmpty && shown.all Char.isDigit

/-- An exponent: its letter, perhaps a sign, and digits. -/
def isExponent : Chars → Bool
  | mark :: rest =>
      let shown := match rest with
        | '-' :: others | '+' :: others => others
        | others => others
      (mark == 'e' || mark == 'E') && !shown.isEmpty && shown.all Char.isDigit
  | [] => false

/-- A cell with a point or an exponent, or one of the words for what is not finite. -/
def isNumberCell (text : Chars) : Bool :=
  let shown := match text with
    | '-' :: rest | '+' :: rest => rest
    | rest => rest
  let (whole, rest) := shown.span Char.isDigit
  match rest with
  | '.' :: behind =>
      let (part, exponent) := behind.span Char.isDigit
      if part.isEmpty then !whole.isEmpty && exponent.isEmpty
      else exponent.isEmpty || isExponent exponent
  | _ => (!whole.isEmpty && isExponent rest) || shown == "inf".toList || shown == "NaN".toList

/-- The number of cells that decide how a column is read. -/
def sampledCells : Nat := 100

/-- The kind of column that some cells suggest. -/
def ColumnKind.ofCells (texts : List Chars) : ColumnKind :=
  let filled := (texts.take sampledCells).filter fun text => !text.isEmpty
  if filled.isEmpty then .text
  else if filled.all isWholeCell then
    if filled.all fun text => fitsWord ((Decimal.integer? text).getD 0) then .word else .integer
  else if filled.all fun text => isWholeCell text || isNumberCell text then .number
  else .text

variable {α : Type} [Arith α]

namespace Cell

/-- The cell of a text in a column of some kind, if it can stand there. -/
def ofText? (kind : ColumnKind) (text : Chars) : Option (Cell α) :=
  if text.isEmpty then some .empty
  else match kind with
    | .word =>
        if isWholeCell text then ((Decimal.integer? text).filter fitsWord).map .int else none
    | .integer => if isWholeCell text then (Decimal.integer? text).map .int else none
    | .number =>
        if isWholeCell text || isNumberCell text then (Decimal.number? text).map .real else none
    | .text => some (.text (String.ofList text))

/-- The integer or the number in a cell. -/
def number? : Cell α → Option (Number α)
  | .int value => some (.int value)
  | .real value => some (.real value)
  | _ => none

/-- The number that stands for a cell in calculations. -/
def real? : Cell α → Option α
  | .int value => Arith.ofInt? value
  | .real value => some value
  | .text value => Decimal.number? value.toList
  | .empty => none

/-- The integer of 64 bits that stands for a cell; a number loses its fraction. -/
def word? (cell : Cell α) : Option Int :=
  let whole := match cell with
    | .int value => some value
    | .real value =>
        if Arith.less value Arith.zero then (Arith.floor? (-value)).map (- ·)
        else Arith.floor? value
    | .text value => Decimal.integer? value.toList
    | .empty => none
  whole.filter fitsWord

/-- A cell comes no later than another one of its column; an empty cell comes first. -/
def notAfter : Cell α → Cell α → Bool
  | .empty, _ => true
  | .int x, .int y => x ≤ y
  | .real x, .real y => Arith.atMost x y || Arith.isNaN y
  | .text x, .text y => x ≤ y
  | _, _ => false

/-- Tests whether a cell is below another one, which does not hold of empty cells.  Two integers
compare exactly, and an integer counts as a number beside a number. -/
def below : Cell α → Cell α → Bool
  | .int x, .int y => x < y
  | .text x, .text y => x < y
  | .empty, _ | _, .empty => false
  | x, y => match x.real?, y.real? with
    | some a, some b => Arith.less a b
    | _, _ => false

end Cell

end Backtest.Market
