import Backtest.Text.Quoted

/-!
# Faults

Whatever stops a run has one constructor here; `Fault.message` holds the wording.  `Fault.kind`
sorts the faults by what went wrong, and the command line reports those of the kinds `invalid`,
`unresolved` and `file` as errors of its input.
-/

namespace Backtest

open Text

/-- The closed families of names that settings are chosen from. -/
inductive Family where
  | strategy
  | signal
  | direction
  | asset
  deriving DecidableEq

/-- The name that a family has in messages. -/
def Family.label : Family → String
  | .strategy => "StrategyKind"
  | .signal => "SignalKind"
  | .direction => "Direction"
  | .asset => "AssetKind"

/-- Why a text is not a calendar day. -/
inductive DayFlaw where
  | malformed (text : String)
  | year (value : Nat)
  | month
  | day
  deriving DecidableEq

def DayFlaw.message : DayFlaw → String
  | .malformed text => "Invalid isoformat string: " ++ quoted text
  | .year value => "year " ++ toString value ++ " is out of range"
  | .month => "month must be in 1..12"
  | .day => "day is out of range for month"

/-- Why the text of a file cannot be read. -/
inductive FileFlaw where
  | missing
  | notDirectory
  | directory
  | nameTooLong
  deriving DecidableEq

namespace FileFlaw

def text : FileFlaw → String
  | .missing => "No such file or directory"
  | .notDirectory => "Not a directory"
  | .directory => "Is a directory"
  | .nameTooLong => "File name too long"

/-- The number of a flaw. -/
def code : FileFlaw → Nat
  | .missing => 2
  | .notDirectory => 20
  | .directory => 21
  | .nameTooLong => 36

/-- The message about a table. -/
def aboutTable (flaw : FileFlaw) (path : String) : String :=
  match flaw with
  | .directory => "expected a file path; " ++ quoted path ++ " is a directory"
  | flaw => flaw.text ++ " (os error " ++ toString flaw.code ++ "): " ++ path

/-- The message about a script. -/
def aboutScript (flaw : FileFlaw) (path : String) : String :=
  "[Errno " ++ toString flaw.code ++ "] " ++ flaw.text ++ ": " ++ quoted path

end FileFlaw

inductive Fault where
  | unresolved (text : String)
  | emptyBars
  | timestampOrder (bar : Nat)
  | undefinedPrice (column : String) (bar : Nat)
  | missingColumns (names : List String)
  | absentColumn (name : String)
  | emptyTable
  | extraCells (row : Nat)
  | unreadableCell (column text : String)
  | textCompared (column : String)
  | textSubtracted (column : String)
  | unconvertible (column : String)
  | undatedRow
  | unknownName (name : String) (family : Family)
  | unknownSortKey (name : String) (known : List String)
  | notANumber (text : String)
  | notAnInteger (text : String)
  | integerTooLong (digits : Nat)
  | undefinedToInteger
  | infiniteToInteger
  | invertedRange (name lowest greatest : String)
  | badDay (flaw : DayFlaw)
  | integerTooLarge
  | quotientTooLarge
  | timestampTooLarge
  | startTooLarge (start : Int)
  | divisionByZero
  | unknownAttribute (name : String)
  | unknownMetric (name : String)
  | badAssignment (text : String)
  | badRange (text : String)
  | badBound (text : String)
  | noStrategy
  | unreadableTable (flaw : FileFlaw) (path : String)
  | unreadableScript (flaw : FileFlaw) (path : String)
  | outsideCalendar
  | wrongType
  | noSuchBar
  | neverEnds
  | tooDeep
  deriving DecidableEq

namespace Fault

inductive Kind where
  | invalid
  | unresolved
  | overflow
  | zeroDivision
  | attribute
  | argument
  | file
  | type
  | index
  | column
  | noData
  | table
  | conversion
  | endless
  deriving DecidableEq

def kind : Fault → Kind
  | .unresolved _ => .unresolved
  | .emptyBars | .timestampOrder _ | .undefinedPrice _ _ | .missingColumns _ | .unknownName _ _
  | .unknownSortKey _ _ | .notANumber _ | .notAnInteger _ | .integerTooLong _ | .undefinedToInteger
  | .invertedRange _ _ _ | .badDay _ | .noStrategy => .invalid
  | .infiniteToInteger | .integerTooLarge | .quotientTooLarge | .timestampTooLarge
  | .startTooLarge _ => .overflow
  | .divisionByZero => .zeroDivision
  | .unknownAttribute _ | .unknownMetric _ => .attribute
  | .badAssignment _ | .badRange _ | .badBound _ => .argument
  | .unreadableTable _ _ | .unreadableScript _ _ => .file
  | .undatedRow | .outsideCalendar | .wrongType => .type
  | .noSuchBar => .index
  | .absentColumn _ => .column
  | .emptyTable => .noData
  | .extraCells _ | .unreadableCell _ _ | .textCompared _ => .table
  | .textSubtracted _ | .unconvertible _ => .conversion
  | .neverEnds | .tooDeep => .endless

def message : Fault → String
  | .unresolved text => text
  | .emptyBars => "bar list is empty"
  | .timestampOrder bar =>
      "timestamps must be strictly increasing (bar " ++ toString bar ++ ")"
  | .undefinedPrice column bar => "non-finite " ++ column ++ " price at bar " ++ toString bar
  | .missingColumns names => "missing column(s): " ++ join ", " names
  | .absentColumn name => name
  | .emptyTable => "the table has no header"
  | .extraCells row => "row " ++ toString row ++ " has more cells than the header"
  | .unreadableCell name text => "the column " ++ name ++ " cannot hold " ++ quoted text
  | .textCompared name => "the column " ++ name ++ " holds text, which is compared with a number"
  | .textSubtracted name => "the column " ++ name ++ " holds text, which is subtracted"
  | .unconvertible name => "the column " ++ name ++ " holds a value that has no place in a bar"
  | .undatedRow => "a row without a moment"
  | .unknownName name family => quoted name ++ " is not a valid " ++ family.label
  | .unknownSortKey name known =>
      "unknown sort key " ++ quoted name ++ "; expected one of " ++ join ", " known
  | .notANumber text => "could not convert string to float: " ++ quoted text
  | .notAnInteger text => "invalid literal for int() with base 10: " ++ quotedStart 200 text
  | .integerTooLong digits =>
      "Exceeds the limit (4300 digits) for integer string conversion: value has " ++
        toString digits ++ " digits; use sys.set_int_max_str_digits() to increase the limit"
  | .undefinedToInteger => "cannot convert float NaN to integer"
  | .infiniteToInteger => "cannot convert float infinity to integer"
  | .invertedRange name lowest greatest =>
      "range " ++ quoted name ++ ": min " ++ lowest ++ " > max " ++ greatest
  | .badDay flaw => flaw.message
  | .integerTooLarge => "int too large to convert to float"
  | .quotientTooLarge => "integer division result too large for a float"
  | .timestampTooLarge => "Python int too large to convert to C long"
  | .startTooLarge start => "Python integer " ++ toString start ++ " out of bounds for int64"
  | .divisionByZero => "float division by zero"
  | .unknownAttribute name => name
  | .unknownMetric name => "'BacktestMetrics' object has no attribute '" ++ name ++ "'"
  | .badAssignment text => "expected name=value, got " ++ quoted text
  | .badRange text => "expected name=min:max[:step], got " ++ quoted text
  | .badBound text => "non-numeric bound in " ++ quoted text
  | .noStrategy => "None is not a valid " ++ Family.strategy.label
  | .unreadableTable flaw path => flaw.aboutTable path
  | .unreadableScript flaw path => flaw.aboutScript path
  | .outsideCalendar => "a moment outside the calendar"
  | .wrongType => "a value of the wrong type"
  | .noSuchBar => "no bar at this index"
  | .neverEnds => "the search does not end"
  | .tooDeep => "the expression is nested too deeply"

end Fault

/-- A computation that a fault can stop. -/
abbrev Outcome := Except Fault

/-- An outcome together with the warnings that were given on the way to it. -/
structure Warned (β : Type) where
  warnings : List String
  outcome : Outcome β

end Backtest
