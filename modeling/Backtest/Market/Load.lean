import Backtest.Market.DayText
import Backtest.Market.Table
import Backtest.Market.Timeframe

/-!
# Loading a table of prices

`load` sorts a table by time, keeps the rows of some days, and warns of gaps and of rows that
contradict themselves.  `rowBars` takes the six price columns out of it.
-/

namespace Backtest.Market

/-- The columns that a list of bars is made of. -/
def priceColumns : List String := ["timestamp", "open", "high", "low", "close", "volume"]

variable {α : Type} [Arith α]

/-- The rows of a table with their moments. -/
def timedRows (table : Table α) : Outcome (List (Cell α × List (Cell α))) := do
  pure ((← table.column "timestamp").zip table.rows)

/-- Keeps the rows whose moment passes a test; a row without a moment passes none. -/
def keep (test : Number α → Bool) (rows : List (Cell α × List (Cell α))) :
    List (Cell α × List (Cell α)) :=
  rows.filter fun row => (row.1.number?.map test).getD false

/-- The first millisecond of a day given as text; no text and an empty one set no bound. -/
def bound? (day : Option String) : Outcome (Option Int) :=
  match day.filter fun text => !text.isEmpty with
  | some text => do pure (some (← Calendar.dayStart text))
  | none => .ok none

/-- Keeps the rows on one side of a day, if there is one. -/
def keepSide (table : Table α) (side : Int → Number α → Bool) (day : Option String)
    (rows : List (Cell α × List (Cell α))) : Outcome (List (Cell α × List (Cell α))) := do
  match ← bound? day with
  | none => pure rows
  | some start =>
      Table.checkComparison "timestamp" (← table.kindOf "timestamp") .word
      pure (keep (side start) rows)

/-- The rows of a table in the order of time, from the first day on and up to the last one. -/
def windowRows (table : Table α) (first last : Option String) :
    Outcome (List (Cell α × List (Cell α))) := do
  let rows := (← timedRows table).mergeSort fun x y => x.1.notAfter y.1
  let rows ← keepSide table (fun start moment => !moment.below (.int start)) first rows
  keepSide table (fun start moment => moment.below (.int (start + Calendar.millisPerDay))) last rows

/-- The steps between neighbours. -/
def steps {β : Type} (difference : β → β → β) : List β → List β
  | earlier :: later :: rest => difference later earlier :: steps difference (later :: rest)
  | _ => []

/-- The steps between neighbouring moments of a column, empty cells left out.  Integers of 64 bits
wrap around. -/
def stepsOf (kind : ColumnKind) (moments : List (Cell α)) : Outcome (List (Number α)) :=
  let whole := moments.filterMap fun cell => match cell with
    | .int value => some value
    | _ => none
  let real := moments.filterMap fun cell => match cell with
    | .real value => some value
    | _ => none
  match kind with
  | .word => .ok ((steps wordDifference whole).map .int)
  | .integer => .ok ((steps (· - ·) whole).map .int)
  | .number => .ok ((steps (· - ·) real).map .real)
  | .text => .error (.textSubtracted "timestamp")

/-- The warning of steps that are longer than two and a half bars. -/
def gapWarning (timeframe : String) (steps : List (Number α)) : List String :=
  let bar := barMillis timeframe
  let limit : Number α := .int (bar * 5 / 2)
  match steps.filter limit.below with
  | [] => []
  | first :: rest =>
      let largest := rest.foldl (fun best step => if best.below step then step else best) first
      let bars := (largest.div (.int bar)).toOption.getD Arith.nan
      [toString (rest.length + 1) ++ " gap(s) longer than 2.5x the " ++ timeframe ++
        " bar (largest " ++ Arith.fixed 1 bars ++ " bars); metrics may be skewed"]

/-- A row with its highest price below its lowest, its close outside them, or a negative volume. -/
def isBroken (high low close volume : Cell α) : Bool :=
  high.below low || high.below close || close.below low || volume.below (.int 0)

/-- The warning of rows of a table that contradict themselves. -/
def brokenWarning (table : Table α) (rows : List (List (Cell α))) : Outcome (List String) := do
  let highKind ← table.kindOf "high"
  let lowKind ← table.kindOf "low"
  let closeKind ← table.kindOf "close"
  let volumeKind ← table.kindOf "volume"
  Table.checkComparison "high" highKind lowKind
  Table.checkComparison "close" closeKind highKind
  Table.checkComparison "volume" volumeKind .word
  let window : Table α := ⟨table.columns, rows⟩
  let high ← window.column "high"
  let low ← window.column "low"
  let close ← window.column "close"
  let volume ← window.column "volume"
  let broken := (high.zip (low.zip (close.zip volume))).filter fun (h, l, c, v) => isBroken h l c v
  pure (if broken.isEmpty then []
    else ["OHLCV sanity check: " ++ toString broken.length ++
      " row(s) with high < low, close outside [low, high] or negative volume"])

/-- What looks wrong in the rows of a table.  Fewer than two rows give no warning. -/
def qualityWarnings (table : Table α) (timeframe : String) (rows : List (Cell α × List (Cell α))) :
    Warned Unit :=
  if rows.length < 2 then ⟨[], .ok ()⟩
  else
    let moments := rows.map fun row => row.1
    match (table.kindOf "timestamp").bind fun kind => stepsOf kind moments with
    | .error fault => ⟨[], .error fault⟩
    | .ok steps =>
        let gaps := gapWarning timeframe steps
        match brokenWarning table (rows.map fun row => row.2) with
        | .error fault => ⟨gaps, .error fault⟩
        | .ok broken => ⟨gaps ++ broken, .ok ()⟩

/-- Reads a table, sorts it, keeps the rows from the first to the last day, and warns of what looks
wrong in them. -/
def load (text : String) (first last : Option String) (timeframe : String) : Warned (Table α) :=
  let found : Outcome (Table α × List (Cell α × List (Cell α))) := do
    let table ← Table.ofText text
    pure (table, ← windowRows table first last)
  match found with
  | .error fault => ⟨[], .error fault⟩
  | .ok (table, rows) =>
      let quality := qualityWarnings table timeframe rows
      ⟨quality.warnings, quality.outcome.map fun _ => ⟨table.columns, rows.map (·.2)⟩⟩

/-- A column whose cells are taken as values of bars; an empty cell gives none. -/
def valuesOf {β : Type} (table : Table α) (name : String) (read : Cell α → Option β) :
    Outcome (List (Option β)) := do
  (← table.column name).mapM fun cell => match cell, read cell with
    | .empty, _ => .ok none
    | _, some value => .ok (some value)
    | _, none => .error (.unconvertible name)

/-- A column of prices; an empty cell is undefined. -/
def pricesOf (table : Table α) (name : String) : Outcome (Series α) := do
  pure ((← valuesOf table name Cell.real?).map fun price => price.getD Arith.nan)

/-- The bars of the rows of a table, which must have all six columns; a row without a moment has
none. -/
def rowBars (table : Table α) : Outcome (List (Option (Bar α))) := do
  let missing := priceColumns.filter fun name => (table.place? name).isNone
  if !missing.isEmpty then throw (.missingColumns missing)
  let moments ← valuesOf table "timestamp" Cell.word?
  let opening ← pricesOf table "open"
  let high ← pricesOf table "high"
  let low ← pricesOf table "low"
  let close ← pricesOf table "close"
  let volume ← pricesOf table "volume"
  pure ((moments.zip (opening.zip (high.zip (low.zip (close.zip volume))))).map
    fun (moment, o, h, l, c, v) => moment.map fun t => ⟨t, o, h, l, c, v⟩)

/-- The bars of some rows, if each row has one. -/
def completeBars (rows : List (Option (Bar α))) : Outcome (List (Bar α)) :=
  rows.mapM fun row => match row with
    | some bar => .ok bar
    | none => .error .undatedRow

end Backtest.Market
