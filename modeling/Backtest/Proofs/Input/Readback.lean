import Backtest.Decimal.Double
import Backtest.Proofs.Input.Update

/-!
# Reading a declaration back

A numeric input with a title, bounds and a step is declared in one line.  The line is read back as
this one parameter if and only if no closing bracket stands in the title (`params_line_iff`): the
arguments end at the first closing bracket, between quotes or not.
-/

namespace Backtest.Input

open Text Decimal Backtest.Expr

variable {α : Type} [Arith α]

/-! ## Arguments with a keyword -/

/-- A value behind a keyword and an equality sign. -/
def named (key : String) (value : Chars) : Chars := key.toList ++ '=' :: value

section Named

variable {key : String} {value : Chars}

theorem isArgument_named (hne : key.toList ≠ []) (hkey : ∀ c ∈ key.toList, isWord c = true)
    (hvalue : IsValue value) : IsArgument (named key value) := by
  have hword : ∀ c ∈ key.toList, IsPlain c := by
    intro c hc
    have hword := hkey c hc
    have hothers : c ∉ [',', '='] := not_mem_of_all (by decide +kernel) hword
    simp only [List.mem_cons, List.not_mem_nil, or_false, not_or] at hothers
    exact ⟨not_isBlank_of_all (by decide +kernel) hword,
      .of_not_mem (not_mem_of_all (by decide +kernel) hword), hothers⟩
  have hname := isValue_of_forall hne hword
  refine ⟨List.append_ne_nil_of_left_ne_nil hne _, ⟨?_, ?_⟩, ?_⟩
  · exact hname.head_append ('=' :: value)
  · intro c hc
    apply hvalue.trimmed.last
    rwa [named, List.getLast?_append_of_ne_nil _ (List.cons_ne_nil _ _),
      List.getLast?_cons_of_ne_nil hvalue.nonempty] at hc
  · exact hname.outside.append (.bare (by decide) (by decide) hvalue.outside)

theorem keyword?_eq_some (hne : key.toList ≠ []) (hkey : ∀ c ∈ key.toList, isWord c = true)
    (hvalue : IsValue value) : keyword? (named key value) = some (key, value) := by
  have hread := @keyword?_named key.toList value [] [] hne hkey hvalue nofun nofun
  rwa [String.ofList_toList] at hread

end Named

/-! ## Lines -/

theorem params_nil : params [] = ([] : List (Param α)) := by
  rw [params, declarations, segments_nil]
  rfl

/-- A declaration at the front of a text is read first, whatever follows it. -/
theorem params_append {found : Declaration} (hfound : found.Proper) (rest : Chars) :
    params (found.name ++ found.head ++ found.arguments ++ ')' :: rest) =
      (Param.ofDeclaration found : Param α) :: params rest := by
  have htext : found.name ++ found.head ++ found.arguments ++ ')' :: rest =
      (Segment.declaration found).text ++ rest := by
    simp [Segment.text]
  have hsegments := segments_declaration anyName hfound rfl rest
  unfold anyName at hsegments
  rw [htext, params, declarations, hsegments]
  rfl

/-- A script numeral with the number that it is read as. -/
structure WrittenNumeral where
  text : Chars
  numeral : Numeral
  reads : scriptNumeral? text = some numeral

theorem WrittenNumeral.isValue (numeral : WrittenNumeral) : IsValue numeral.text :=
  (isNewText_numeral numeral.reads).toIsValue

/-- A numeric input with a title, bounds and a step. -/
structure TitledInput where
  name : Chars
  isName : IsName name
  kind : InputKind
  isNumeric : kind.isNumeric = true
  title : Chars
  nonempty : title ≠ []
  trimmed : IsTrimmed title
  unquoted : ∀ c ∈ title, isQuote c = false
  default : WrittenNumeral
  least : WrittenNumeral
  greatest : WrittenNumeral
  step : WrittenNumeral

namespace TitledInput

/-- The arguments: the default and the title by position, the bounds and the step by keyword. -/
def parts (input : TitledInput) : List Chars :=
  [input.default.text, '"' :: (input.title ++ ['"']), named "minval" input.least.text,
    named "maxval" input.greatest.text, named "step" input.step.text]

/-- The text between the name and the arguments. -/
def head (input : TitledInput) : Chars := " = input".toList ++ kindText (some input.kind) ++ ['(']

/-- The line that declares the input. -/
def line (input : TitledInput) : Chars :=
  input.name ++ input.head ++ commas input.parts ++ [')']

/-- The parameter that the line is about. -/
def param (input : TitledInput) : Param α :=
  { name := String.ofList input.name
    title := String.ofList input.title
    kind := input.kind
    default := numberDefault input.kind input.default.numeral.value
    least := some input.least.numeral.value
    greatest := some input.greatest.numeral.value
    step := some input.step.numeral.value
    options := none }

variable (input : TitledInput)

/-! ## The declaration in a line -/

/-- The declaration with other arguments. -/
def declaration (arguments : Chars) : Declaration :=
  ⟨input.name, input.head, some input.kind, arguments⟩

theorem proper {arguments : Chars} (hclosed : ')' ∉ arguments) :
    (input.declaration arguments).Proper := by
  have hheading (kind : InputKind) : '(' ∉ " = input".toList ++ kindText (some kind) ∧
      heading? (" = input".toList ++ kindText (some kind)) = some (some kind) := by
    cases kind <;> decide
  exact ⟨input.isName, ⟨_, rfl, hheading input.kind⟩, hclosed⟩

/-- The arguments end at the first closing bracket. -/
theorem params_declaration {arguments : Chars} (hclosed : ')' ∉ arguments) (rest : Chars) :
    params (input.name ++ input.head ++ arguments ++ ')' :: rest) =
      (Param.ofDeclaration (input.declaration arguments) : Param α) :: params rest :=
  params_append (input.proper hclosed) rest

/-! ## A title without a closing bracket -/

theorem isValue_title : IsValue ('"' :: (input.title ++ ['"'])) := by
  apply isValue_quoted (by decide)
  intro hmem
  exact absurd (input.unquoted _ hmem) (by decide)

theorem arguments_parts : arguments (commas input.parts) = input.parts := by
  apply arguments_commas
  intro text htext
  simp only [parts, List.mem_cons, List.not_mem_nil, or_false] at htext
  rcases htext with rfl | rfl | rfl | rfl | rfl
  · exact input.default.isValue.toIsArgument
  · exact input.isValue_title.toIsArgument
  · exact isArgument_named (by decide) (by decide) input.least.isValue
  · exact isArgument_named (by decide) (by decide) input.greatest.isValue
  · exact isArgument_named (by decide) (by decide) input.step.isValue

/-- The arguments by key. -/
theorem argumentRecord_parts : argumentRecord (commas input.parts) =
    [("minval", input.least.text), ("maxval", input.greatest.text), ("step", input.step.text),
      ("defval", input.default.text), ("title", '"' :: (input.title ++ ['"']))] := by
  have hdefault := input.default.isValue.notKeyword
  have htitle := input.isValue_title.notKeyword
  have hleast : keyword? (named "minval" input.least.text) = _ :=
    keyword?_eq_some (by decide) (by decide) input.least.isValue
  have hgreatest : keyword? (named "maxval" input.greatest.text) = _ :=
    keyword?_eq_some (by decide) (by decide) input.greatest.isValue
  have hstep : keyword? (named "step" input.step.text) = _ :=
    keyword?_eq_some (by decide) (by decide) input.step.isValue
  rw [argumentRecord_eq, arguments_parts, recordOf, parts,
    List.filterMap_cons_none hdefault, List.filterMap_cons_none htitle,
    List.filterMap_cons_some hleast, List.filterMap_cons_some hgreatest,
    List.filterMap_cons_some hstep, List.filterMap_nil,
    List.filter_cons_of_pos (by rw [hdefault]; rfl), List.filter_cons_of_pos (by rw [htitle]; rfl),
    List.filter_cons_of_neg (by rw [hleast]; exact Bool.false_ne_true),
    List.filter_cons_of_neg (by rw [hgreatest]; exact Bool.false_ne_true),
    List.filter_cons_of_neg (by rw [hstep]; exact Bool.false_ne_true), List.filter_nil]
  rfl

theorem not_mem_parts (hclosed : ')' ∉ input.title) : ')' ∉ commas input.parts := by
  have hnumeral (numeral : WrittenNumeral) : ')' ∉ numeral.text :=
    (isNewText_numeral numeral.reads).notClose
  simp [commas, parts, named, hnumeral, hclosed]

/-- The parameter of the arguments as they are in the line. -/
theorem ofDeclaration_parts :
    (Param.ofDeclaration (input.declaration (commas input.parts)) : Param α) = input.param := by
  have hquote : '"' ∉ input.title := fun hmem => absurd (input.unquoted _ hmem) (by decide)
  have htitle : cleanText ('"' :: (input.title ++ ['"'])) = input.title := by
    rw [cleanText_quoted hquote, trim_of_isTrimmed input.trimmed input.nonempty]
  have hfilled : filled? (argumentRecord (commas input.parts)) "title" =
      some ('"' :: (input.title ++ ['"'])) := by
    rw [argumentRecord_parts]
    rfl
  have hoptions : optionsOf (argumentRecord (commas input.parts)) = none := by
    rw [argumentRecord_parts]
    rfl
  have hnumber (numeral : WrittenNumeral) :
      (some numeral.text).bind leadingNumber? = some (numeral.numeral.value : α) :=
    leadingNumber?_numeral numeral.reads
  have hdefault : (defaultOf input.kind input.default.text : Scalar α) =
      numberDefault input.kind input.default.numeral.value :=
    defaultOf_numeral input.isNumeric input.default.reads
  rw [Param.ofDeclaration, param, declaration]
  dsimp only
  rw [hfilled, hoptions, argumentRecord_parts]
  dsimp only
  rw [htitle]
  simp [Record.get?, hnumber, hdefault]

/-! ## A title with a closing bracket -/

/-- A scan goes over a quote that is not closed. -/
theorem argumentsFrom_quoted {text : Chars} (htext : '"' ∉ text) (before : Chars) :
    argumentsFrom ⟨0, some '"'⟩ before text =
      argumentsFrom ⟨0, some '"'⟩ (text.reverse ++ before) [] := by
  induction text generalizing before with
  | nil => rfl
  | cons c rest ih =>
      obtain ⟨hc, hrest⟩ := List.ne_and_not_mem_of_not_mem_cons htext
      rw [scans_argumentsFrom.pass (Nesting.step_quoted 0 (Ne.symm hc)), ih hrest,
        List.reverse_cons, List.append_assoc]
      rfl

theorem trim_quote (text : Chars) : trim (' ' :: '"' :: text) = '"' :: trimRight text := by
  have hleft : trimLeft (' ' :: '"' :: text) = '"' :: text := rfl
  have hright : (text.reverse ++ '"' :: []).dropWhile isBlank = trimLeft text.reverse ++ '"' :: [] :=
    trimLeft_append_cons (by decide) _ _
  rw [trim, hleft, trimRight, List.reverse_cons, hright, List.reverse_append]
  rfl

/-- The arguments up to a place within the title. -/
theorem arguments_cut {front : Chars} (hfront : '"' ∉ front) :
    arguments (input.default.text ++ ',' :: ' ' :: '"' :: front) =
      [input.default.text, '"' :: trimRight front] := by
  have hscan (before : Chars) : argumentsFrom Nesting.start before (',' :: ' ' :: '"' :: front) =
      trim before.reverse :: argumentsFrom ⟨0, some '"'⟩ ['"', ' '] front := rfl
  have hlast : argumentsFrom ⟨0, some '"'⟩ (front.reverse ++ ['"', ' ']) [] =
      ['"' :: trimRight front] := by
    have htext : (front.reverse ++ ['"', ' ']).reverse = ' ' :: '"' :: front := by simp
    rw [argumentsFrom, htext, trim_quote]
    rfl
  have hdefault := input.default.isValue.toIsArgument
  rw [arguments, hdefault.argumentsFrom_append, hscan, argumentsFrom_quoted hfront, hlast,
    List.append_nil, List.reverse_reverse, trim_of_isTrimmed hdefault.trimmed hdefault.nonempty]

/-- A declaration that ends within the title has no bounds. -/
theorem least_cut {front : Chars} (hfront : '"' ∉ front) :
    (Param.ofDeclaration (input.declaration
      (input.default.text ++ ',' :: ' ' :: '"' :: front)) : Param α).least = none := by
  have hdefault := input.default.isValue.notKeyword
  have htitle := keyword?_quote (show isQuote '"' = true by decide) (trimRight front)
  have hrecord : argumentRecord (input.default.text ++ ',' :: ' ' :: '"' :: front) =
      [("defval", input.default.text), ("title", '"' :: trimRight front)] := by
    rw [argumentRecord_eq, input.arguments_cut hfront, recordOf, List.filterMap_cons_none hdefault,
      List.filterMap_cons_none htitle, List.filterMap_nil,
      List.filter_cons_of_pos (by rw [hdefault]; rfl),
      List.filter_cons_of_pos (by rw [htitle]; rfl), List.filter_nil]
    rfl
  rw [Param.ofDeclaration, declaration]
  dsimp only
  rw [hrecord]
  rfl

/-- A line is read back as its parameter if and only if no closing bracket stands in the title. -/
theorem params_line_iff : params input.line = [(input.param : Param α)] ↔ ')' ∉ input.title := by
  constructor
  · intro hparams hmem
    obtain ⟨front, back, htitle, hclosed⟩ := List.eq_append_cons_of_mem hmem
    have hfront : '"' ∉ front := by
      intro hquote
      have hunquoted := input.unquoted '"' (by rw [htitle]; exact List.mem_append_left _ hquote)
      exact absurd hunquoted (by decide)
    have hline : ∃ rest, input.line = input.name ++ input.head ++
        (input.default.text ++ ',' :: ' ' :: '"' :: front) ++ ')' :: rest := by
      refine ⟨back ++ '"' :: ',' :: ' ' :: (commas (input.parts.drop 2) ++ [')']), ?_⟩
      simp [line, parts, commas, htitle]
    obtain ⟨rest, hrest⟩ := hline
    have hnumeral : ')' ∉ input.default.text := (isNewText_numeral input.default.reads).notClose
    rw [hrest, input.params_declaration (by simp [hnumeral, hclosed])] at hparams
    injection hparams with hparam
    have hleast := congrArg Param.least hparam
    rw [input.least_cut hfront] at hleast
    cases hleast
  · intro hclosed
    rw [line, input.params_declaration (input.not_mem_parts hclosed), input.ofDeclaration_parts,
      params_nil]

end TitledInput

/-- The length of an average. -/
def averageInput : TitledInput where
  name := "n".toList
  isName := ⟨by decide, by decide⟩
  kind := .int
  isNumeric := rfl
  title := "Fast MA".toList
  nonempty := by decide
  trimmed := by decide
  unquoted := by decide
  default := ⟨"9".toList, ⟨false, 9, 0⟩, by decide⟩
  least := ⟨"2".toList, ⟨false, 2, 0⟩, by decide⟩
  greatest := ⟨"100".toList, ⟨false, 100, 0⟩, by decide⟩
  step := ⟨"1".toList, ⟨false, 1, 0⟩, by decide⟩

/-- A title without brackets. -/
theorem params_line_averageInput :
    params averageInput.line = [(averageInput.param : Param Float)] :=
  averageInput.params_line_iff.2 (by decide)

/-- The same input with brackets in the title. -/
def bracketedInput : TitledInput :=
  { averageInput with
    title := "Fast (MA)".toList
    nonempty := by decide
    trimmed := by decide
    unquoted := by decide }

/-- The bracket in the title ends the arguments, and the bounds are lost. -/
theorem bracketedInput_cut :
    bracketedInput.line = "n = input.int(9, \"Fast (MA)\", minval=2, maxval=100, step=1)".toList ∧
      params bracketedInput.line ≠ [(bracketedInput.param : Param Float)] := by
  refine ⟨by decide, fun hparams => ?_⟩
  have hleast : (params bracketedInput.line : List (Param Float)).map (·.least.isSome) =
      [false] := by decide +kernel
  rw [hparams] at hleast
  exact nomatch hleast

end Backtest.Input
