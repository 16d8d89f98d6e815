import Backtest.Market.Table
import Backtest.Proofs.Decimal.Numeral
import Backtest.Proofs.Outcome

/-!
# Sheets of numbers

A column is read in the way that its first cells suggest.  `Stands kind` says which cells can stand
in a column of a kind: each of them holds a value there (`exists_cell`), a cell with a point, an
exponent or a word for what is not finite because the free grammar of numbers has all of these
(`exists_number?`).  A column that begins with numerals is no column of text (`ofCells_of_begun`).

A sheet is a table before its cells are read: the names of its columns and rows of texts.  A text
that holds a sheet of numbers is read as the table of the sheet (`ofText_eq`), cell by cell, if the
first cells of each column tell how all of its cells are read.  Columns are looked up by their names
and a name that no column has is told by the fault.
-/

namespace Backtest.Market

open Text Decimal

/-! ## Numerals in cells -/

/-- A cell that is written as an integer or as a number. -/
def IsNumeral (text : Chars) : Prop := isWholeCell text = true ∨ isNumberCell text = true

instance (text : Chars) : Decidable (IsNumeral text) := inferInstanceAs (Decidable (_ ∨ _))

section Numerals

variable {text shown digits rest : Chars} {mark : Char}

theorem takeDigits_append (hdigits : digits.all Char.isDigit = true)
    (hrest : startsWithDigit rest = false) : takeDigits (digits ++ rest) = (digits, rest) := by
  have hall : ∀ c ∈ digits, isDigit c = true := fun c hc =>
    isDigit_of_isDigit (List.all_eq_true.1 hdigits c hc)
  have hnone : rest.takeWhile isDigit = [] ∧ rest.dropWhile isDigit = rest := by
    cases rest with
    | nil => exact ⟨rfl, rfl⟩
    | cons c others =>
        have hc : ¬ isDigit c = true := by rwa [Bool.not_eq_true]
        exact ⟨List.takeWhile_cons_of_neg hc, List.dropWhile_cons_of_neg hc⟩
  rw [takeDigits_eq, List.takeWhile_append_of_pos hall, List.dropWhile_append_of_pos hall, hnone.1,
    hnone.2, List.append_nil]

theorem isExponent_cons : isExponent (mark :: rest) =
    ((mark == 'e' || mark == 'E') && !(takeSign rest).2.isEmpty &&
      (takeSign rest).2.all Char.isDigit) := by
  fun_cases takeSign rest with
  | case1 others => rfl
  | case2 others => rfl
  | case3 others hminus hplus =>
      rw [isExponent]
      · exact hminus
      · exact hplus

/-- An exponent begins with its letter and is taken as a whole. -/
theorem takeExponent_of_isExponent (hexponent : rest = [] ∨ isExponent rest = true) :
    startsWithDigit rest = false ∧ (takeExponent takeDigits rest).2 = [] := by
  cases rest with
  | nil => exact ⟨rfl, rfl⟩
  | cons mark others =>
      have hparts := hexponent.resolve_left (List.cons_ne_nil _ _)
      rw [isExponent_cons] at hparts
      simp only [Bool.and_eq_true, Bool.or_eq_true, beq_iff_eq, Bool.not_eq_true'] at hparts
      obtain ⟨⟨hmark, hnonempty⟩, hdigits⟩ := hparts
      have htake : takeDigits (takeSign others).2 = ((takeSign others).2, []) := by
        have hnone : startsWithDigit ([] : Chars) = false := rfl
        have happend := takeDigits_append hdigits hnone
        rwa [List.append_nil] at happend
      constructor
      · rcases hmark with rfl | rfl <;> rfl
      · rw [takeExponent, if_pos hmark]
        dsimp only
        rw [htake]
        cases hshown : (takeSign others).2 with
        | nil => exact absurd hnonempty (by rw [hshown]; decide)
        | cons c rest => rfl

/-- Digits with an optional point among them and an optional exponent behind them are a script
numeral, whatever the sign. -/
theorem exists_scriptNumeral? {whole part exponent : Chars}
    (hfraction : takeFraction takeDigits (takeSign text).2 = (whole, part, exponent))
    (hnonempty : (whole.isEmpty && part.isEmpty) = false)
    (hexponent : exponent = [] ∨ isExponent exponent = true) :
    ∃ numeral, scriptNumeral? text = some numeral := by
  have hend := (takeExponent_of_isExponent hexponent).2
  rw [scriptNumeral?, takeScriptNumeral?, takeNumeral?]
  dsimp only
  rw [hfraction]
  dsimp only
  rw [hnonempty, if_neg Bool.false_ne_true, hend]
  exact ⟨_, rfl⟩

theorem takeFraction_point {whole part exponent : Chars} (hwhole : whole.all Char.isDigit = true)
    (hpart : part.all Char.isDigit = true) (hnonempty : (whole.isEmpty && part.isEmpty) = false)
    (hexponent : startsWithDigit exponent = false) :
    takeFraction takeDigits (whole ++ '.' :: (part ++ exponent)) = (whole, part, exponent) := by
  have hpoint : startsWithDigit ('.' :: (part ++ exponent)) = false := rfl
  rw [takeFraction]
  dsimp only
  rw [takeDigits_append hwhole hpoint]
  change (if (whole.isEmpty && (takeDigits (part ++ exponent)).1.isEmpty) = true then _ else _) = _
  rw [takeDigits_append hpart hexponent, hnonempty, if_neg Bool.false_ne_true]

theorem takeFraction_whole {whole exponent : Chars} (hwhole : whole.all Char.isDigit = true)
    (hexponent : startsWithDigit exponent = false) (hpoint : exponent.head? ≠ some '.') :
    takeFraction takeDigits (whole ++ exponent) = (whole, [], exponent) := by
  rw [takeFraction]
  dsimp only
  rw [takeDigits_append hwhole hexponent]
  dsimp only
  split
  · exact absurd rfl hpoint
  · rfl

/-- A number with a point or an exponent, or a word for what is not finite, without its sign. -/
def isUnsigned (shown : Chars) : Bool :=
  let (whole, rest) := shown.span Char.isDigit
  match rest with
  | '.' :: behind =>
      let (part, exponent) := behind.span Char.isDigit
      if part.isEmpty then !whole.isEmpty && exponent.isEmpty
      else exponent.isEmpty || isExponent exponent
  | _ => (!whole.isEmpty && isExponent rest) || shown == "inf".toList || shown == "NaN".toList

theorem isNumberCell_eq (text : Chars) : isNumberCell text = isUnsigned (takeSign text).2 := by
  fun_cases takeSign text with
  | case1 rest => rfl
  | case2 rest => rfl
  | case3 rest hminus hplus =>
      rw [isNumberCell]
      · rfl
      · exact hminus
      · exact hplus

/-- A number with a point or an exponent is taken apart at them. -/
theorem isUnsigned_cases (hnumber : isUnsigned shown = true) :
    (∃ whole part exponent, takeFraction takeDigits shown = (whole, part, exponent) ∧
      (whole.isEmpty && part.isEmpty) = false ∧ (exponent = [] ∨ isExponent exponent = true)) ∨
    shown = "inf".toList ∨ shown = "NaN".toList := by
  have hdigits (text : Chars) : (text.takeWhile Char.isDigit).all Char.isDigit = true :=
    List.all_eq_true.2 fun c hc => List.mem_takeWhile_imp hc
  have hspan (text : Chars) :
      text.span Char.isDigit = (text.takeWhile Char.isDigit, text.dropWhile Char.isDigit) :=
    List.span_eq_takeWhile_dropWhile ..
  have hsplit : shown.takeWhile Char.isDigit ++ shown.dropWhile Char.isDigit = shown :=
    List.takeWhile_append_dropWhile
  rw [isUnsigned, hspan] at hnumber
  dsimp only at hnumber
  split at hnumber
  · next behind hbehind =>
      rw [hspan] at hnumber
      dsimp only at hnumber
      have hparts : ((shown.takeWhile Char.isDigit).isEmpty &&
          (behind.takeWhile Char.isDigit).isEmpty) = false ∧
            (behind.dropWhile Char.isDigit = [] ∨
              isExponent (behind.dropWhile Char.isDigit) = true) := by
        split at hnumber
        · rw [Bool.and_eq_true, Bool.not_eq_true'] at hnumber
          exact ⟨by rw [hnumber.1, Bool.false_and], .inl (List.isEmpty_iff.1 hnumber.2)⟩
        · next hpart =>
            rw [Bool.or_eq_true, List.isEmpty_iff] at hnumber
            exact ⟨by rw [Bool.eq_false_iff.2 hpart, Bool.and_false], hnumber⟩
      have htake := takeFraction_point (hdigits shown) (hdigits behind) hparts.1
        (takeExponent_of_isExponent hparts.2).1
      rw [List.takeWhile_append_dropWhile, ← hbehind, hsplit] at htake
      exact .inl ⟨_, _, _, htake, hparts⟩
  · next hpoint =>
      simp only [Bool.or_eq_true, Bool.and_eq_true, Bool.not_eq_true', beq_iff_eq] at hnumber
      rcases hnumber with (⟨hwhole, hexponent⟩ | hword) | hword
      · have htake := takeFraction_whole (hdigits shown)
          (takeExponent_of_isExponent (.inr hexponent)).1 fun hhead => by
            obtain ⟨rest, hrest⟩ := List.head?_eq_some_iff.1 hhead
            exact hpoint rest hrest
        rw [hsplit] at htake
        exact .inl ⟨_, _, _, htake, by rw [hwhole, Bool.false_and], .inr hexponent⟩
      · exact .inr (.inl hword)
      · exact .inr (.inr hword)

/-- A sign and a text without one. -/
theorem eq_of_takeSign (hshown : (takeSign text).2 = shown) :
    text = shown ∨ text = '-' :: shown ∨ text = '+' :: shown := by
  subst hshown
  fun_cases takeSign text with
  | case1 rest => exact .inr (.inl rfl)
  | case2 rest => exact .inr (.inr rfl)
  | case3 rest => exact .inl rfl

theorem isWholeCell_cases (hwhole : isWholeCell text = true) :
    (takeSign text).2.all Char.isDigit = true ∧ (takeSign text).2 ≠ [] := by
  fun_cases takeSign text with
  | case1 rest =>
      change (!rest.isEmpty && rest.all Char.isDigit) = true at hwhole
      rw [Bool.and_eq_true, Bool.not_eq_true', List.isEmpty_eq_false_iff] at hwhole
      exact hwhole.symm
  | case2 rest => exact nomatch hwhole
  | case3 rest hminus =>
      rw [isWholeCell] at hwhole
      · rw [Bool.and_eq_true, Bool.not_eq_true', List.isEmpty_eq_false_iff] at hwhole
        exact hwhole.symm
      · exact hminus

variable {α : Type} [Arith α]

/-- The numerals of cells are numerals of the free grammar. -/
theorem exists_number? (hnumeral : IsNumeral text) : ∃ x : α, number? text = some x := by
  have hscript {whole part exponent : Chars}
      (hfraction : takeFraction takeDigits (takeSign text).2 = (whole, part, exponent))
      (hnonempty : (whole.isEmpty && part.isEmpty) = false)
      (hexponent : exponent = [] ∨ isExponent exponent = true) :
      ∃ x : α, number? text = some x := by
    obtain ⟨numeral, hread⟩ := exists_scriptNumeral? hfraction hnonempty hexponent
    exact ⟨_, number?_of_scriptNumeral? hread⟩
  rcases hnumeral with hwhole | hnumber
  · obtain ⟨hdigits, hne⟩ := isWholeCell_cases hwhole
    have hnone : startsWithDigit ([] : Chars) = false := rfl
    have htake := takeFraction_whole hdigits hnone nofun
    rw [List.append_nil] at htake
    exact hscript htake (by rw [List.isEmpty_eq_false_iff.2 hne, Bool.false_and]) (.inl rfl)
  · rw [isNumberCell_eq] at hnumber
    rcases isUnsigned_cases hnumber with ⟨whole, part, exponent, htake, hne, hexponent⟩ | hword
    · exact hscript htake hne hexponent
    · rcases hword with hword | hword
      · rcases eq_of_takeSign hword with rfl | rfl | rfl <;> exact ⟨_, rfl⟩
      · rcases eq_of_takeSign hword with rfl | rfl | rfl <;> exact ⟨_, rfl⟩

end Numerals

/-! ## Columns -/

section Columns

variable {kind : ColumnKind} {text : Chars} {texts : List Chars}

/-- The cells that can stand in a column of a kind, besides empty ones. -/
def Stands (kind : ColumnKind) (text : Chars) : Prop :=
  match kind with
  | .word => isWholeCell text = true ∧ (integer? text).any fitsWord = true
  | .integer => isWholeCell text = true ∧ (integer? text).isSome = true
  | .number => IsNumeral text
  | .text => True

instance (kind : ColumnKind) (text : Chars) : Decidable (Stands kind text) :=
  match kind with
  | .word => inferInstanceAs (Decidable (_ ∧ _))
  | .integer => inferInstanceAs (Decidable (_ ∧ _))
  | .number => inferInstanceAs (Decidable (IsNumeral text))
  | .text => isTrue trivial

/-- Every cell of a column can stand in it, though only the first ones decide its kind. -/
def Settled (texts : List Chars) : Prop :=
  ∀ text ∈ texts, text = [] ∨ Stands (.ofCells texts) text

instance (texts : List Chars) : Decidable (Settled texts) :=
  inferInstanceAs (Decidable (∀ text ∈ texts, _))

theorem ne_nil_of_isNumeral (hnumeral : IsNumeral text) : text ≠ [] := by
  rintro rfl
  rcases hnumeral with hwhole | hnumber
  · exact nomatch hwhole
  · exact absurd hnumber (by decide)

section Reading

variable {α : Type} [Arith α]

/-- A cell of integers that is read as one. -/
theorem ofText?_int (hkind : kind = .word ∨ kind = .integer) (hwhole : isWholeCell text = true)
    (hstands : Stands kind text) :
    ∃ n, integer? text = some n ∧ Cell.ofText? kind text = some (.int n : Cell α) := by
  have hshown : ¬ text.isEmpty = true := by
    rw [List.isEmpty_iff]
    exact ne_nil_of_isNumeral (.inl hwhole)
  rcases hkind with rfl | rfl
  · obtain ⟨n, hn, hfits⟩ := (Option.any_eq_true ..).1 hstands.2
    refine ⟨n, hn, ?_⟩
    rw [Cell.ofText?.eq_def, if_neg hshown]
    dsimp only
    rw [if_pos hwhole, hn, Option.filter_some_pos hfits]
    rfl
  · obtain ⟨n, hn⟩ := Option.isSome_iff_exists.1 hstands.2
    refine ⟨n, hn, ?_⟩
    rw [Cell.ofText?.eq_def, if_neg hshown]
    dsimp only
    rw [if_pos hwhole, hn]
    rfl

/-- A cell that stands in a column holds a value there. -/
theorem exists_cell (hstands : text = [] ∨ Stands kind text) :
    ∃ cell : Cell α, Cell.ofText? kind text = some cell := by
  rcases hstands with rfl | hstands
  · exact ⟨.empty, rfl⟩
  · cases kind with
    | word =>
        obtain ⟨n, _, hcell⟩ := ofText?_int (α := α) (.inl rfl) hstands.1 hstands
        exact ⟨_, hcell⟩
    | integer =>
        obtain ⟨n, _, hcell⟩ := ofText?_int (α := α) (.inr rfl) hstands.1 hstands
        exact ⟨_, hcell⟩
    | number =>
        obtain ⟨x, hx⟩ := exists_number? (α := α) hstands
        have hnumeral : (isWholeCell text || isNumberCell text) = true := by
          rw [Bool.or_eq_true]
          exact hstands
        refine ⟨.real x, ?_⟩
        rw [Cell.ofText?.eq_def, if_neg (by simpa using ne_nil_of_isNumeral hstands)]
        dsimp only
        rw [if_pos hnumeral, hx]
        rfl
    | text =>
        rw [Cell.ofText?.eq_def]
        split
        · exact ⟨_, rfl⟩
        · exact ⟨_, rfl⟩

end Reading

section Kinds

/-- The cells that decide the kind of a column. -/
theorem mem_filled :
    text ∈ (texts.take sampledCells).filter (fun text => !text.isEmpty) ↔
      text ∈ texts.take sampledCells ∧ text ≠ [] := by
  rw [List.mem_filter, Bool.not_eq_true', List.isEmpty_eq_false_iff]

/-- A column that begins with numerals, empty cells aside, is no column of text, and one of integers
if these are integers. -/
theorem ofCells_of_begun (hbegun : ∃ text ∈ texts.take sampledCells, text ≠ [])
    (hnumerals : ∀ text ∈ texts, text = [] ∨ IsNumeral text) :
    ColumnKind.ofCells texts ≠ .text ∧
      ((∀ text ∈ texts, isWholeCell text = true) →
        ColumnKind.ofCells texts = .word ∨ ColumnKind.ofCells texts = .integer) := by
  obtain ⟨first, hfirst, hne⟩ := hbegun
  have hfilled : ((texts.take sampledCells).filter fun text => !text.isEmpty).isEmpty = false :=
    List.isEmpty_eq_false_iff.2 (List.ne_nil_of_mem (mem_filled.2 ⟨hfirst, hne⟩))
  have hall : (((texts.take sampledCells).filter fun text => !text.isEmpty).all fun text =>
      isWholeCell text || isNumberCell text) = true := by
    refine List.all_eq_true.2 fun text htext => ?_
    obtain ⟨htext, hshown⟩ := mem_filled.1 htext
    rw [Bool.or_eq_true]
    exact (hnumerals text (List.mem_of_mem_take htext)).resolve_left hshown
  rw [ColumnKind.ofCells, hfilled, if_neg Bool.false_ne_true, if_pos hall]
  split
  · split
    · exact ⟨nofun, fun _ => .inl rfl⟩
    · exact ⟨nofun, fun _ => .inr rfl⟩
  · next hnot =>
      refine ⟨nofun, fun hwhole => absurd (List.all_eq_true.2 fun text htext => ?_) hnot⟩
      exact hwhole text (List.mem_of_mem_take (mem_filled.1 htext).1)

end Kinds

end Columns

/-! ## Sheets -/

structure Sheet where
  names : List String
  rows : List (List Chars)

namespace Sheet

/-- The text of a row in a column. -/
def entry (place : Nat) (row : List Chars) : Chars := row[place]?.getD []

/-- The texts of a column. -/
def texts (sheet : Sheet) (place : Nat) : List Chars := sheet.rows.map (entry place)

/-- A text holds a sheet: a line of names, and a line of cells for each row, with commas between
them. -/
def WrittenAs (sheet : Sheet) (text : String) : Prop :=
  (tableLines text.toList).map (pieces ',') = sheet.names.map String.toList :: sheet.rows

instance (sheet : Sheet) (text : String) : Decidable (sheet.WrittenAs text) :=
  inferInstanceAs (Decidable (_ = _))

/-- A sheet with a numeral or nothing in each cell. -/
structure IsNumeric (sheet : Sheet) : Prop where
  distinct : sheet.names.Nodup
  length_eq : ∀ row ∈ sheet.rows, row.length = sheet.names.length
  numerals : ∀ row ∈ sheet.rows, ∀ text ∈ row, text = [] ∨ IsNumeral text

/-- The first cells of each column tell how all of its cells are read: they are not all empty, and
no later cell needs another kind of column. -/
structure IsTelling (sheet : Sheet) : Prop where
  begun : sheet.rows ≠ [] → ∀ place < sheet.names.length,
    ∃ text ∈ (sheet.texts place).take sampledCells, text ≠ []
  settled : ∀ place < sheet.names.length, Settled (sheet.texts place)

def kind (sheet : Sheet) (place : Nat) : ColumnKind := .ofCells (sheet.texts place)

def columns (sheet : Sheet) : List Column :=
  sheet.names.zipIdx.map fun (name, place) => ⟨name, sheet.kind place⟩

/-! ## Columns by name -/

section Lookup

variable {α : Type} {sheet : Sheet} {name : String}

/-- The place of a column. -/
def placeOf (sheet : Sheet) (name : String) : Nat := sheet.names.idxOf name

theorem placeOf_lt (hname : name ∈ sheet.names) : sheet.placeOf name < sheet.names.length :=
  List.idxOf_lt_length_of_mem hname

theorem findIdx?_columns (sheet : Sheet) (name : String) :
    (sheet.columns.findIdx? fun column => column.name == name) =
      sheet.names.findIdx? (· == name) := by
  have hnames : sheet.columns.map (·.name) = sheet.names := by
    rw [columns, List.map_map]
    exact List.zipIdx_map_fst 0 sheet.names
  rw [← hnames, List.findIdx?_map]
  rfl

/-- A column of a sheet is found by its name, whatever the rows. -/
theorem place?_eq (hname : name ∈ sheet.names) (rows : List (List (Cell α))) :
    (⟨sheet.columns, rows⟩ : Table α).place? name = some (sheet.placeOf name) := by
  rw [Table.place?, findIdx?_columns]
  exact List.findIdx?_eq_some_of_exists ⟨name, hname, beq_self_eq_true name⟩

theorem place?_eq_none (hname : name ∉ sheet.names) (rows : List (List (Cell α))) :
    (⟨sheet.columns, rows⟩ : Table α).place? name = none := by
  rw [Table.place?, findIdx?_columns, List.findIdx?_eq_none_iff]
  exact fun other hother => beq_false_of_ne fun heq => hname (heq ▸ hother)

theorem kindOf_eq (hname : name ∈ sheet.names) (rows : List (List (Cell α))) :
    (⟨sheet.columns, rows⟩ : Table α).kindOf name = .ok (sheet.kind (sheet.placeOf name)) := by
  have hplace := place?_eq (α := α) hname rows
  rw [Table.place?] at hplace
  have hlt := placeOf_lt hname
  rw [Table.kindOf, List.find?_eq_bind_findIdx?_getElem?, hplace, Option.bind_some, columns,
    List.getElem?_map, List.getElem?_zipIdx, List.getElem?_eq_getElem hlt, Nat.zero_add]
  rfl

/-- A column that is absent has no kind. -/
theorem kindOf_eq_error (hname : name ∉ sheet.names) (rows : List (List (Cell α))) :
    (⟨sheet.columns, rows⟩ : Table α).kindOf name = .error (.absentColumn name) := by
  have hplace := place?_eq_none (α := α) hname rows
  rw [Table.place?] at hplace
  rw [Table.kindOf, List.find?_eq_bind_findIdx?_getElem?, hplace, Option.bind_none]

theorem column_eq (hname : name ∈ sheet.names) (rows : List (List (Cell α))) :
    (⟨sheet.columns, rows⟩ : Table α).column name =
      .ok (rows.map fun row => row[sheet.placeOf name]?.getD .empty) := by
  rw [Table.column, place?_eq hname]

theorem column_eq_error (hname : name ∉ sheet.names) (rows : List (List (Cell α))) :
    (⟨sheet.columns, rows⟩ : Table α).column name = .error (.absentColumn name) := by
  rw [Table.column, place?_eq_none hname]

end Lookup

/-! ## Reading -/

section Reading

variable {α : Type} [Arith α]

/-- The cell of a row in a column. -/
def cell (sheet : Sheet) (place : Nat) (row : List Chars) : Cell α :=
  (Cell.ofText? (sheet.kind place) (entry place row)).getD .empty

/-- The cells of a row. -/
def readRow (sheet : Sheet) (row : List Chars) : List (Cell α) :=
  sheet.names.zipIdx.map fun (_, place) => sheet.cell place row

/-- The table of a sheet. -/
def table (sheet : Sheet) : Table α := ⟨sheet.columns, sheet.rows.map sheet.readRow⟩

variable {sheet : Sheet} {text name : String} {place : Nat} {row : List Chars}

theorem distinctNames_eq {names : List String} (hdistinct : names.Nodup) :
    distinctNames names = names := by
  have hnone (name : String) (place : Nat) (hentry : (name, place) ∈ names.zipIdx) :
      (names.take place).count name = 0 := by
    obtain ⟨hplace, hname⟩ := List.getElem?_eq_some_iff.1 (List.mem_zipIdx_iff_getElem?.1 hentry)
    refine List.count_eq_zero.2 fun hmem => ?_
    obtain ⟨earlier, hearlier, hsame⟩ := List.mem_take_iff_getElem.1 hmem
    obtain ⟨hearlier, hlength⟩ := Nat.lt_min.1 hearlier
    exact List.pairwise_iff_getElem.1 hdistinct earlier place hlength hplace hearlier
      (hsame.trans hname.symm)
  rw [distinctNames]
  conv_rhs => rw [← List.zipIdx_map_fst 0 names]
  refine List.map_congr_left fun (name, place) hentry => ?_
  dsimp only
  rw [hnone name place hentry]

theorem zipIdx_columns (sheet : Sheet) :
    sheet.columns.zipIdx = sheet.names.zipIdx.map fun (name, place) =>
      ((⟨name, sheet.kind place⟩ : Column), place) := by
  refine List.ext_getElem? fun place => ?_
  simp only [columns, List.getElem?_zipIdx, List.getElem?_map, Option.map_map]
  cases sheet.names[place]? with
  | none => rfl
  | some name => simp

theorem length_columns (sheet : Sheet) : sheet.columns.length = sheet.names.length := by
  rw [columns, List.length_map, List.length_zipIdx]

theorem lt_length_of_mem {name : String} (hentry : (name, place) ∈ sheet.names.zipIdx) :
    place < sheet.names.length :=
  (List.getElem?_eq_some_iff.1 (List.mem_zipIdx_iff_getElem?.1 hentry)).1

theorem entry_mem (hnumeric : sheet.IsNumeric) (hplace : place < sheet.names.length)
    (hrow : row ∈ sheet.rows) : entry place row ∈ row := by
  have hlength : place < row.length := by rwa [hnumeric.length_eq row hrow]
  rw [entry, List.getElem?_eq_getElem hlength]
  exact List.getElem_mem hlength

/-- A column of a sheet with rows is no column of text, and one of integers if all of its cells
are. -/
theorem kind_cases (hnumeric : sheet.IsNumeric) (htelling : sheet.IsTelling)
    (hrows : sheet.rows ≠ []) (hplace : place < sheet.names.length) :
    sheet.kind place ≠ .text ∧
      ((∀ row ∈ sheet.rows, isWholeCell (entry place row) = true) →
        sheet.kind place = .word ∨ sheet.kind place = .integer) := by
  have hkind := ofCells_of_begun (htelling.begun hrows place hplace)
    (List.forall_mem_map.2 fun row hrow =>
      hnumeric.numerals row hrow _ (entry_mem hnumeric hplace hrow))
  exact ⟨hkind.1, fun hwhole => hkind.2 (List.forall_mem_map.2 hwhole)⟩

theorem ofText?_cell (htelling : sheet.IsTelling) (hplace : place < sheet.names.length)
    (hrow : row ∈ sheet.rows) :
    Cell.ofText? (sheet.kind place) (entry place row) = some (sheet.cell place row : Cell α) := by
  obtain ⟨found, hfound⟩ :=
    exists_cell (α := α) (htelling.settled place hplace _ (List.mem_map_of_mem hrow))
  rw [cell, kind, hfound, Option.getD_some]

theorem rowOf_eq (hnumeric : sheet.IsNumeric) (htelling : sheet.IsTelling)
    (hrow : row ∈ sheet.rows) (number : Nat) :
    Table.rowOf sheet.columns number row = .ok (sheet.readRow row : List (Cell α)) := by
  have hlength : ¬ sheet.columns.length < row.length := by
    rw [length_columns, hnumeric.length_eq row hrow]
    exact Nat.lt_irrefl _
  rw [Table.rowOf, if_neg hlength, Outcome.mapM_eq_ok_iff, zipIdx_columns, readRow,
    List.forall₂_map_left_iff, List.forall₂_map_right_iff, List.forall₂_same]
  rintro ⟨name, place⟩ hentry
  have hcell := ofText?_cell (α := α) htelling (lt_length_of_mem hentry) hrow
  rw [entry] at hcell
  dsimp only
  rw [hcell]

/-- The text of a sheet is read as its table. -/
theorem ofText_eq (hwritten : sheet.WrittenAs text) (hnumeric : sheet.IsNumeric)
    (htelling : sheet.IsTelling) : Table.ofText text = .ok (sheet.table : Table α) := by
  obtain ⟨header, lines, htext, hheader, hrows⟩ := List.map_eq_cons_iff.1 hwritten
  have hnames : (pieces ',' header).map String.ofList = sheet.names := by
    rw [hheader, List.map_map]
    exact (List.map_congr_left fun name _ => String.ofList_toList).trans (List.map_id _)
  have hread : (sheet.rows.zipIdx.mapM fun entry =>
      Table.rowOf sheet.columns entry.2 entry.1) =
        .ok (sheet.rows.map sheet.readRow : List (List (Cell α))) := by
    rw [Outcome.mapM_eq_ok_iff]
    conv_rhs => rw [← List.zipIdx_map_fst 0 sheet.rows, List.map_map]
    rw [List.forall₂_map_right_iff, List.forall₂_same]
    rintro ⟨row, number⟩ hentry
    have hrow : row ∈ sheet.rows :=
      List.mem_of_getElem? (List.mem_zipIdx_iff_getElem?.1 hentry)
    exact rowOf_eq hnumeric htelling hrow number
  rw [Table.ofText, htext]
  dsimp only
  rw [hnames, hrows, distinctNames_eq hnumeric.distinct]
  exact Outcome.bind_eq_ok.2 ⟨_, hread, rfl⟩

/-- A row has the cell of a column at the place of the column. -/
theorem getElem?_readRow (hname : name ∈ sheet.names) (row : List Chars) :
    (sheet.readRow row : List (Cell α))[sheet.placeOf name]? =
      some (sheet.cell (sheet.placeOf name) row) := by
  rw [readRow, List.getElem?_map, List.getElem?_zipIdx,
    List.getElem?_eq_getElem (placeOf_lt hname), Nat.zero_add]
  rfl

end Reading

end Sheet

end Backtest.Market
