import Backtest.Input.Update
import Backtest.Proofs.Decimal.Numeral
import Backtest.Proofs.Input.Argument
import Backtest.Proofs.Input.Heading

/-!
# Literals of defaults

A default that is written as a plain numeral, a truth word or a quoted text is found by the writer
(`IsLiteral.reads`) and is one argument for the reader (`IsValue`).  What the writer puts in its
place is an argument again, and no declaration can begin in it (`IsNewText`).
-/

namespace Backtest.Input

open Text Decimal Backtest.Expr

/-! ## Arguments that are values -/

/-- An argument that is no keyword. -/
structure IsValue (text : Chars) : Prop extends IsArgument text where
  notKeyword : keyword? text = none
  notEqual : text.head? ≠ some '='

theorem IsValue.head_append {text : Chars} (htext : IsValue text) (rest : Chars) :
    ∀ c, (text ++ rest).head? = some c → isBlank c = false := by
  intro c hc
  apply htext.trimmed.head
  rwa [List.head?_append_of_ne_nil _ htext.nonempty] at hc

/-- A character that opens and closes nothing, separates nothing and assigns nothing. -/
def IsPlain (c : Char) : Prop := isBlank c = false ∧ IsBare c ∧ c ≠ ',' ∧ c ≠ '='

instance (c : Char) : Decidable (IsPlain c) := inferInstanceAs (Decidable (_ ∧ _))

theorem keyword?_eq_none {text : Chars} (htext : '=' ∉ text) : keyword? text = none := by
  rw [keyword?]
  split
  · next rest hrest =>
      have hmem : '=' ∈ trimLeft (text.dropWhile isWord) := by
        rw [hrest]
        exact List.mem_cons_self
      exact absurd ((List.dropWhile_sublist _).mem (mem_of_mem_trimLeft hmem)) htext
  · rfl

theorem isValue_of_forall {text : Chars} (hne : text ≠ []) (htext : ∀ c ∈ text, IsPlain c) :
    IsValue text := by
  have hequal : '=' ∉ text := fun hmem => (htext _ hmem).2.2.2 rfl
  refine ⟨⟨hne, isTrimmed_of_forall fun c hc => (htext c hc).1,
    .of_forall fun c hc => ⟨(htext c hc).2.1, (htext c hc).2.2.1⟩⟩, keyword?_eq_none hequal, ?_⟩
  intro hhead
  exact hequal (List.mem_of_head? hhead)

/-- A text that begins with a quote is no keyword. -/
theorem keyword?_quote {mark : Char} (hmark : isQuote mark = true) (rest : Chars) :
    keyword? (mark :: rest) = none := by
  have hword : isWord mark = false := by
    rw [Bool.eq_false_iff]
    intro hword
    exact absurd hmark (by rw [(IsBare.of_isCallChar (by rw [isCallChar, hword]; rfl)).1]; decide)
  have htrim : trimLeft ((mark :: rest).dropWhile isWord) = mark :: rest := by
    rw [List.dropWhile_cons, hword, if_neg Bool.false_ne_true]
    exact trimLeft_blank_cons (List.forall_mem_nil _) (not_isBlank_of_isQuote hmark) _
  rw [keyword?, htrim]
  split
  · next heq =>
      injection heq with heq
      rw [heq] at hmark
      exact absurd hmark (by decide)
  · rfl

theorem isValue_quoted {mark : Char} {content : Chars} (hmark : isQuote mark = true)
    (hcontent : mark ∉ content) : IsValue (mark :: (content ++ [mark])) := by
  have hblank := not_isBlank_of_isQuote hmark
  refine ⟨⟨List.cons_ne_nil _ _, ⟨?_, ?_⟩, .quoted hmark hcontent .nil⟩, keyword?_quote hmark _, ?_⟩
  · intro c hc
    injection hc with hc
    rw [← hc, hblank]
  · intro c hc
    rw [← List.cons_append, List.getLast?_concat] at hc
    injection hc with hc
    rw [← hc, hblank]
  · intro hhead
    injection hhead with hhead
    rw [hhead] at hmark
    exact absurd hmark (by decide)

/-- A value behind a keyword. -/
theorem keyword?_named {name text space1 space2 : Chars} (hne : name ≠ [])
    (hword : ∀ c ∈ name, isWord c = true) (htext : IsValue text)
    (hspace1 : ∀ c ∈ space1, isBlank c = true) (hspace2 : ∀ c ∈ space2, isBlank c = true) :
    keyword? (name ++ (space1 ++ '=' :: (space2 ++ text))) = some (String.ofList name, text) := by
  have hends : ∀ c, (space1 ++ '=' :: (space2 ++ text)).head? = some c → isWord c = false := by
    intro c hc
    cases space1 with
    | nil =>
        injection hc with hc
        rw [← hc]
        decide
    | cons d rest =>
        injection hc with hc
        rw [← hc]
        exact not_isWord_of_isBlank (hspace1 d List.mem_cons_self)
  have hright : trimLeft (space1 ++ '=' :: (space2 ++ text)) = '=' :: (space2 ++ text) :=
    trimLeft_blank_cons hspace1 (by decide) _
  have hhead : (space2 ++ text).head? ≠ some '=' := by
    cases space2 with
    | nil => exact htext.notEqual
    | cons c rest =>
        intro heq
        injection heq with heq
        rw [heq] at hspace2
        exact absurd (hspace2 _ List.mem_cons_self) (by decide)
  have htrim : trim (space2 ++ text) = text := by
    have htrim : trim (space2 ++ (text ++ [])) = text :=
      trim_padded hspace2 nofun htext.trimmed htext.nonempty
    rw [List.append_nil] at htrim
    exact htrim
  rw [keyword?, takeWhile_append_of_stop hword hends, dropWhile_append_of_stop hword hends, hright]
  change (if (name.isEmpty || (space2 ++ text).head? == some '=') = true then none
    else some (String.ofList name, trim (space2 ++ text))) = _
  rw [htrim, beq_false_of_ne hhead, List.isEmpty_eq_false_iff.2 hne]
  rfl

/-- A value behind the keyword of the default. -/
theorem keyword?_default {text space1 space2 : Chars} (htext : IsValue text)
    (hspace1 : ∀ c ∈ space1, isBlank c = true) (hspace2 : ∀ c ∈ space2, isBlank c = true) :
    keyword? ("defval".toList ++ (space1 ++ '=' :: (space2 ++ text))) = some ("defval", text) :=
  keyword?_named (by decide) (by decide) htext hspace1 hspace2

/-! ## Literals -/

/-- The literals of an input kind. -/
def literalOf : InputKind → Literal
  | .int | .float => numeralLiteral
  | .bool => truthLiteral
  | .string => quotedLiteral
  | .source => fun _ => none

/-- A default that is written as a plain literal: digits and points with at most a minus sign before
them, a truth word, or a text without quotes between two quotes. -/
inductive IsLiteral : InputKind → Chars → Prop where
  | numeral {kind : InputKind} {sign body : Chars} (hkind : kind.isNumeric = true)
      (hsign : sign = [] ∨ sign = ['-']) (hne : body ≠ [])
      (hbody : ∀ c ∈ body, isDigit c = true ∨ c = '.') : IsLiteral kind (sign ++ body)
  | truth {word : String} (hword : word = "true" ∨ word = "false") : IsLiteral .bool word.toList
  | quoted {mark : Char} {content : Chars} (hmark : isQuote mark = true)
      (hcontent : ∀ c ∈ content, isQuote c = false) :
      IsLiteral .string (mark :: (content ++ [mark]))

/-- A literal ends before white space, before a comma or with the text. -/
def EndsLiteral (rest : Chars) : Prop := ∀ c, rest.head? = some c → isBlank c = true ∨ c = ','

theorem isPlain_of_isNumeralChar {c : Char} (hc : IsNumeralChar c) : IsPlain c := by
  rcases hc with hdigit | hmark
  · have hothers : c ∉ [',', '='] := not_mem_of_all (by decide +kernel) hdigit
    simp only [List.mem_cons, List.not_mem_nil, or_false, not_or] at hothers
    exact ⟨not_isBlank_of_isDigit hdigit, .of_not_mem (not_mem_of_all (by decide +kernel) hdigit),
      hothers⟩
  · have hall : ∀ c ∈ numeralMarks, IsPlain c := by decide
    exact hall c hmark

theorem IsLiteral.isValue {kind : InputKind} {text : Chars} (htext : IsLiteral kind text) :
    IsValue text := by
  cases htext with
  | @numeral kind sign body _ hsign hne hbody =>
      apply isValue_of_forall
      · exact List.append_ne_nil_of_right_ne_nil sign hne
      · intro c hc
        apply isPlain_of_isNumeralChar
        rcases List.mem_append.1 hc with hc | hc
        · rcases hsign with rfl | rfl
          · exact absurd hc List.not_mem_nil
          · exact .inr (by rw [List.mem_singleton.1 hc]; decide)
        · rcases hbody c hc with hdigit | rfl
          · exact .inl hdigit
          · exact .inr (by decide)
  | truth hword =>
      rcases hword with rfl | rfl
      · exact isValue_of_forall (by decide) (by decide)
      · exact isValue_of_forall (by decide) (by decide)
  | quoted hmark hcontent =>
      apply isValue_quoted hmark
      intro hmem
      rw [hcontent _ hmem] at hmark
      exact nomatch hmark

/-- What can follow a literal that the writer takes: it takes all digits and points. -/
def Follows (kind : InputKind) (rest : Chars) : Prop :=
  kind.isNumeric = true → ∀ c, rest.head? = some c → (isDigit c || c == '.') = false

theorem EndsLiteral.follows {rest : Chars} (hrest : EndsLiteral rest) (kind : InputKind) :
    Follows kind rest := by
  intro _ c hc
  rw [Bool.eq_false_iff]
  intro hpart
  rw [Bool.or_eq_true, beq_iff_eq] at hpart
  have hplain : IsPlain c := isPlain_of_isNumeralChar (hpart.imp id fun hc => by rw [hc]; decide)
  rcases hrest c hc with hblank | hcomma
  · rw [hplain.1] at hblank
    exact nomatch hblank
  · exact hplain.2.2.1 hcomma

theorem literalOf_numeral {kind : InputKind} (hkind : kind.isNumeric = true) :
    literalOf kind = numeralLiteral := by
  cases kind with
  | int | float => rfl
  | bool | string | source => exact nomatch hkind

theorem numeralLiteral_append {sign body rest : Chars} (hsign : sign = [] ∨ sign = ['-'])
    (hne : body ≠ []) (hbody : ∀ c ∈ body, isDigit c = true ∨ c = '.')
    (hrest : ∀ c, rest.head? = some c → (isDigit c || c == '.') = false) :
    numeralLiteral (sign ++ body ++ rest) = some rest := by
  have hpart : ∀ c ∈ body, (isDigit c || c == '.') = true := by
    intro c hc
    rw [Bool.or_eq_true, beq_iff_eq]
    exact hbody c hc
  have hunsigned : numeralLiteral (sign ++ body ++ rest) =
      if ((body ++ rest).takeWhile fun c => isDigit c || c == '.').isEmpty then none
      else some ((body ++ rest).dropWhile fun c => isDigit c || c == '.') := by
    rcases hsign with rfl | rfl
    · rw [List.nil_append, numeralLiteral]
      intro others heq
      obtain ⟨c, later, rfl⟩ := List.exists_cons_of_ne_nil hne
      injection heq with hc
      rw [hc] at hbody
      exact absurd (hbody _ List.mem_cons_self) (by decide)
    · rfl
  rw [hunsigned, takeWhile_append_of_stop hpart hrest, dropWhile_append_of_stop hpart hrest,
    List.isEmpty_eq_false_iff.2 hne, if_neg Bool.false_ne_true]

theorem quotedLiteral_append {mark : Char} {content : Chars} (hmark : isQuote mark = true)
    (hcontent : ∀ c ∈ content, isQuote c = false) (rest : Chars) :
    quotedLiteral (mark :: (content ++ [mark]) ++ rest) = some rest := by
  have hpass : ∀ c ∈ content, (!isQuote c) = true := by
    intro c hc
    rw [hcontent c hc]
    rfl
  have hdrop : (content ++ mark :: rest).dropWhile (fun c => !isQuote c) = mark :: rest := by
    apply dropWhile_append_of_stop hpass
    intro c hc
    injection hc with hc
    rw [← hc, hmark]
    rfl
  rw [List.cons_append, List.append_assoc, List.singleton_append, quotedLiteral, if_pos hmark,
    hdrop]

/-- The writer takes a literal as a whole. -/
theorem IsLiteral.reads {kind : InputKind} {text rest : Chars} (htext : IsLiteral kind text)
    (hrest : Follows kind rest) : literalOf kind (text ++ rest) = some rest := by
  cases htext with
  | numeral hkind hsign hne hbody =>
      rw [literalOf_numeral hkind, numeralLiteral_append hsign hne hbody (hrest hkind)]
  | truth hword => rcases hword with rfl | rfl <;> rfl
  | quoted hmark hcontent => exact quotedLiteral_append hmark hcontent rest

end Backtest.Input
