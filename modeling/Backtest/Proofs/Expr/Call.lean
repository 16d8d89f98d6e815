import Backtest.Expr.Operator
import Backtest.Proofs.Expr.Outside
import Backtest.Proofs.Text.Blank

/-!
# The text of a call

A call is written as a name and, in brackets behind it, its arguments with commas between them.
Reading gives back the name and the arguments, whatever quotes and brackets the arguments hold, and
no operator is found in the text (`call_round_trip`).
-/

namespace Backtest.Expr

open Text

/-- Texts with a comma and a space between any two of them. -/
def commas : List Chars → Chars
  | [] => []
  | [text] => text
  | text :: rest => text ++ ',' :: ' ' :: commas rest

theorem commas_cons (text second : Chars) (others : List Chars) :
    commas (text :: second :: others) = text ++ ',' :: ' ' :: commas (second :: others) := rfl

/-- The text of a call. -/
def callText (name : Chars) (arguments : List Chars) : Chars :=
  name ++ '(' :: (commas arguments ++ [')'])

/-- A text that can stand between two commas. -/
structure IsArgument (text : Chars) : Prop where
  nonempty : text ≠ []
  trimmed : IsTrimmed text
  outside : Outside (· ≠ ',') text

variable {text front rest : Chars} {texts : List Chars}

/-! ## Arguments -/

/-- A scan for arguments goes over an argument. -/
theorem IsArgument.argumentsFrom_append (htext : IsArgument text) (before rest : Chars) :
    argumentsFrom Nesting.start before (text ++ rest) =
      argumentsFrom Nesting.start (text.reverse ++ before) rest := by
  apply scans_argumentsFrom.outside htext.outside (Int.le_refl 0)
  intro _ c hc _ _
  rw [List.head?_cons, beq_eq_false_iff_ne]
  intro heq
  injection heq with heq
  exact hc heq

theorem IsArgument.trim_padded (htext : IsArgument text) (hfront : ∀ c ∈ front, isBlank c = true) :
    trim (text.reverse ++ front.reverse).reverse = text := by
  have htrim : trim (front ++ (text ++ [])) = text :=
    Text.trim_padded hfront nofun htext.trimmed htext.nonempty
  rw [List.append_nil] at htrim
  rw [List.reverse_append, List.reverse_reverse, List.reverse_reverse]
  exact htrim

theorem argumentsFrom_commas (htexts : ∀ text ∈ texts, IsArgument text)
    (hfront : ∀ c ∈ front, isBlank c = true) (hne : texts ≠ []) :
    argumentsFrom Nesting.start front.reverse (commas texts) = texts := by
  induction texts generalizing front with
  | nil => exact absurd rfl hne
  | cons text rest ih =>
      have htext := htexts text List.mem_cons_self
      cases rest with
      | nil =>
          have hscan := htext.argumentsFrom_append front.reverse []
          rw [List.append_nil, argumentsFrom, htext.trim_padded hfront] at hscan
          rw [commas, hscan, List.isEmpty_eq_false_iff.2 htext.nonempty]
          rfl
      | cons second others =>
          have hothers := fun other hother => htexts other (List.mem_cons_of_mem text hother)
          have hcomma (before others : Chars) :
              argumentsFrom Nesting.start before (',' :: ' ' :: others) =
                trim before.reverse :: argumentsFrom Nesting.start [' '].reverse others := rfl
          rw [commas_cons, htext.argumentsFrom_append, hcomma, htext.trim_padded hfront,
            ih hothers (by decide) (List.cons_ne_nil _ _)]

/-- Taking the arguments of a list with commas apart gives the list back. -/
theorem arguments_commas (htexts : ∀ text ∈ texts, IsArgument text) :
    arguments (commas texts) = texts := by
  by_cases hne : texts = []
  · rw [hne]
    rfl
  · have hscan : argumentsFrom Nesting.start [].reverse (commas texts) = texts :=
      argumentsFrom_commas htexts nofun hne
    exact hscan

/-! ## Names of calls -/

/-- A character of the name of a call. -/
def isCallChar (c : Char) : Bool := isWord c || c == '.'

theorem isWord_of_isNameStart {c : Char} (hc : isNameStart c = true) : isWord c = true := by
  rw [isNameStart, Bool.or_eq_true] at hc
  rw [isWord, Bool.or_eq_true, Bool.or_eq_true]
  left
  rcases hc with hc | hc
  · left
    exact Bool.or_eq_true_iff.2 (.inl hc)
  · exact .inr hc

theorem isCallChar_of_isCallName {name : Chars} (hname : isCallName name = true) :
    ∀ c ∈ name, isCallChar c = true := by
  cases name with
  | nil => exact nofun
  | cons first others =>
      rw [isCallName, Bool.and_eq_true] at hname
      intro c hc
      rcases List.mem_cons.1 hc with rfl | hc
      · rw [isCallChar, isWord_of_isNameStart hname.1, Bool.true_or]
      · exact List.all_eq_true.1 hname.2 c hc

theorem not_isBlank_of_isCallChar {c : Char} (hc : isCallChar c = true) : isBlank c = false :=
  not_isBlank_of_all (by decide +kernel) hc

/-- A character that is no quote and no bracket is bare. -/
theorem IsBare.of_not_mem {c : Char} (hothers : c ∉ ['"', '\'', '(', '[', ')', ']']) :
    IsBare c := by
  simp only [List.mem_cons, List.not_mem_nil, or_false, not_or] at hothers
  obtain ⟨hdouble, hsingle, hround, hsquare, hclose, hend⟩ := hothers
  refine ⟨?_, hround, hsquare, hclose, hend⟩
  rw [isQuote, beq_false_of_ne hdouble, beq_false_of_ne hsingle]
  rfl

/-- Neither brackets nor quotes stand in the name of a call. -/
theorem IsBare.of_isCallChar {c : Char} (hc : isCallChar c = true) : IsBare c :=
  .of_not_mem (not_mem_of_all (by decide +kernel) hc)

/-! ## Calls -/

theorem cutAt_append {mark : Char} (hfront : mark ∉ front) :
    cutAt mark (front ++ mark :: rest) = some (front, rest) := by
  have hpass : ∀ c ∈ front, (c != mark) = true := by
    intro c hc
    rw [bne_iff_ne]
    rintro rfl
    exact hfront hc
  have hstop : (mark != mark) = false := bne_self_eq_false mark
  rw [cutAt, List.dropWhile_append_of_pos hpass, List.takeWhile_append_of_pos hpass,
    List.dropWhile_cons, List.takeWhile_cons, hstop, if_neg Bool.false_ne_true,
    if_neg Bool.false_ne_true, List.append_nil]

theorem Outside.commas {p : Char → Prop} (htexts : ∀ text ∈ texts, Outside p text)
    (hcomma : p ',') (hspace : p ' ') : Outside p (commas texts) := by
  induction texts with
  | nil => exact .nil
  | cons text rest ih =>
      have htext := htexts text List.mem_cons_self
      cases rest with
      | nil => exact htext
      | cons second others =>
          have hothers := fun other hother => htexts other (List.mem_cons_of_mem text hother)
          exact htext.append (.bare (by decide) hcomma (.bare (by decide) hspace (ih hothers)))

/-- Reading the text of a call gives its name and its arguments. -/
theorem call?_callText {name : Chars} (hname : isCallName name = true)
    (htexts : ∀ text ∈ texts, IsArgument text) :
    call? (callText name texts) = some ⟨String.ofList name, texts⟩ := by
  have hchars := isCallChar_of_isCallName hname
  have hopen : '(' ∉ name := fun hmem => (IsBare.of_isCallChar (hchars _ hmem)).2.1 rfl
  have hne : name ≠ [] := by
    rintro rfl
    exact nomatch hname
  have htrim : trim name = name :=
    trim_of_isTrimmed (isTrimmed_of_forall fun c hc => not_isBlank_of_isCallChar (hchars c hc)) hne
  have houtside : Outside (fun _ => True) (commas texts) :=
    .commas (fun text htext => (htexts text htext).outside.inside) trivial trivial
  rw [call?, callText, cutAt_append hopen]
  dsimp only
  rw [htrim, isWrapped_wrap houtside, hname, Bool.and_self, if_pos rfl, List.dropLast_concat,
    arguments_commas htexts]

/-! ## Operators -/

/-- The texts at which an expression is split. -/
def splitSymbols : List Chars :=
  [['?'], [':']] ++ Junction.disjunction.symbols ++ Junction.conjunction.symbols ++
    Comparison.all.map Comparison.symbol ++ Operation.all.map Operation.symbol

/-- No operator starts with a character of the name of a call. -/
theorem exists_head_of_mem_splitSymbols {op : Chars} (hop : op ∈ splitSymbols) :
    ∃ head tail, op = head :: tail ∧ isCallChar head = false := by
  have hall : ∀ op ∈ splitSymbols, op.head?.any (!isCallChar ·) = true := by decide +kernel
  obtain ⟨head, hhead, hchar⟩ := (Option.any_eq_true _ _).1 (hall op hop)
  obtain ⟨tail, rfl⟩ := List.head?_eq_some_iff.1 hhead
  rw [Bool.not_eq_true'] at hchar
  exact ⟨head, tail, rfl, hchar⟩

/-- Of the text of a call, only the name lies outside. -/
theorem Outside.callText {p : Char → Prop} {name : Chars} (hname : ∀ c ∈ name, IsBare c ∧ p c)
    (htexts : ∀ text ∈ texts, IsArgument text) : Outside p (callText name texts) := by
  have hcommas : Outside (fun _ => True) (Expr.commas texts) :=
    .commas (fun text htext => (htexts text htext).outside.inside) trivial trivial
  exact (Outside.of_forall hname).append hcommas.wrap

/-- The text of a call is split at no operator. -/
theorem splits_callText {name : Chars} (hname : isCallName name = true)
    (htexts : ∀ text ∈ texts, IsArgument text) {op : Chars} (hop : op ∈ splitSymbols) :
    splits op (callText name texts) = [] := by
  have hchars := isCallChar_of_isCallName hname
  obtain ⟨head, tail, rfl, hhead⟩ := exists_head_of_mem_splitSymbols hop
  refine splits_eq_nil (.callText (fun c hc => ⟨.of_isCallChar (hchars c hc), ?_⟩) htexts)
  rintro rfl
  rw [hchars _ hc] at hhead
  cases hhead

theorem commas_eq_intercalate (texts : List Chars) : commas texts = [',', ' '].intercalate texts := by
  induction texts with
  | nil => rfl
  | cons text rest ih =>
      cases rest with
      | nil => exact (List.append_nil text).symm
      | cons second others =>
          rw [commas_cons, ih]
          rfl

/-- A call is read back from its text, and no operator is found in the text. -/
theorem call_round_trip {name : Chars} {texts : List Chars} (hname : isCallName name = true)
    (htexts : ∀ text ∈ texts, IsArgument text) :
    call? (name ++ '(' :: ([',', ' '].intercalate texts ++ [')'])) =
        some ⟨String.ofList name, texts⟩ ∧
      ∀ op ∈ splitSymbols,
        splits op (name ++ '(' :: ([',', ' '].intercalate texts ++ [')'])) = [] := by
  rw [← commas_eq_intercalate]
  exact ⟨call?_callText hname htexts, fun op hop => splits_callText hname htexts hop⟩

/-- A call with brackets in one argument and an open bracket within the quotes of another one. -/
theorem call_round_trip_nested :
    isCallName "math.max".toList = true ∧
      (∀ text ∈ ["nz(x[1], 0)".toList, "'a, (b'".toList], IsArgument text) ∧
      call? "math.max(nz(x[1], 0), 'a, (b')".toList =
        some ⟨"math.max", ["nz(x[1], 0)".toList, "'a, (b'".toList]⟩ ∧
      splits [' ', 'o', 'r', ' '] "math.max(nz(x[1], 0), 'a, (b')".toList = [] := by
  have hname : isCallName "math.max".toList = true := by decide +kernel
  have hinner : Outside (fun _ => True) "x[1], 0".toList :=
    .bare (by decide) trivial (@Outside.square _ ['1'] _ (.bare (by decide) trivial .nil)
      (.of_forall (by decide)))
  have hcall : IsArgument "nz(x[1], 0)".toList :=
    ⟨by decide, isTrimmed_iff.2 (by decide +kernel), .bare (by decide) (by decide)
      (.bare (by decide) (by decide) (.round hinner .nil))⟩
  have hquoted : IsArgument "'a, (b'".toList :=
    ⟨by decide, isTrimmed_iff.2 (by decide +kernel),
      @Outside.quoted _ '\'' "a, (b".toList _ rfl (by decide) .nil⟩
  have htexts : ∀ text ∈ ["nz(x[1], 0)".toList, "'a, (b'".toList], IsArgument text :=
    List.forall_mem_cons.2 ⟨hcall, List.forall_mem_singleton.2 hquoted⟩
  obtain ⟨hread, hsplits⟩ := call_round_trip hname htexts
  exact ⟨hname, htexts, hread, hsplits _ (by decide)⟩

end Backtest.Expr
