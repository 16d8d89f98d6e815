import Backtest.Market.Cell

/-!
# Tables

A table is read from comma-separated text with a header line.  `Table.ofText` finds the columns, the
kind of each, and the cells of each row.
-/

namespace Backtest.Market

open Text

structure Column where
  name : String
  kind : ColumnKind

/-- A table by rows; the columns keep their order. -/
structure Table (α : Type) where
  columns : List Column
  rows : List (List (Cell α))

/-- A line without the carriage return at its end. -/
def withoutReturn (line : Chars) : Chars :=
  if line.getLast? = some '\r' then line.dropLast else line

/-- The lines of a table, its header first.  Line ends before the header do not count, and nothing
follows the last one; a blank line behind the header is a row. -/
def tableLines (text : Chars) : List Chars :=
  let lines := pieces '\n' (text.dropWhile fun c => c == '\n' || c == '\r')
  (if lines.getLast? = some [] then lines.dropLast else lines).map withoutReturn

/-- The names of columns with a number behind each repetition of an earlier one. -/
def distinctNames (names : List String) : List String :=
  names.zipIdx.map fun (name, place) => match (names.take place).count name with
    | 0 => name
    | before + 1 => name ++ "_duplicated_" ++ toString before

namespace Table

variable {α : Type} [Arith α]

/-- The cells of a row, given their texts.  A row that is too short ends in empty cells. -/
def rowOf (columns : List Column) (place : Nat) (texts : List Chars) : Outcome (List (Cell α)) :=
  if columns.length < texts.length then .error (.extraCells place)
  else columns.zipIdx.mapM fun (column, place) =>
    let text := texts[place]?.getD []
    match Cell.ofText? column.kind text with
    | some cell => .ok cell
    | none => .error (.unreadableCell column.name (String.ofList text))

/-- Reads a table.  There must be a header. -/
def ofText (text : String) : Outcome (Table α) :=
  match tableLines text.toList with
  | [] => .error .emptyTable
  | header :: lines => do
      let names := distinctNames ((pieces ',' header).map String.ofList)
      let rows := lines.map (pieces ',')
      let columns := names.zipIdx.map fun (name, place) =>
        ⟨name, .ofCells (rows.map fun row => row[place]?.getD [])⟩
      pure ⟨columns, ← rows.zipIdx.mapM fun (row, place) => rowOf columns place row⟩

/-- The place of a column. -/
def place? (table : Table α) (name : String) : Option Nat :=
  table.columns.findIdx? fun column => column.name == name

/-- The cells of a column. -/
def column (table : Table α) (name : String) : Outcome (List (Cell α)) :=
  match table.place? name with
  | some place => .ok (table.rows.map fun row => row[place]?.getD .empty)
  | none => .error (.absentColumn name)

/-- The kind of a column. -/
def kindOf (table : Table α) (name : String) : Outcome ColumnKind :=
  match table.columns.find? fun column => column.name == name with
  | some column => .ok column.kind
  | none => .error (.absentColumn name)

/-- Text is compared with text only. -/
def checkComparison (name : String) (kind other : ColumnKind) : Outcome Unit :=
  if (kind = .text) = (other = .text) then .ok () else .error (.textCompared name)

end Table

end Backtest.Market
