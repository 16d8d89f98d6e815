import Backtest.Proofs.Decimal.Numeral
import Backtest.Proofs.Expr.Reading
import Backtest.Proofs.Expr.Term

/-!
# Printed terms

A printed term is a sentence whose operators bind at least as tightly as the root of the term:
whatever would bind more loosely stands in brackets, and a text in brackets is an atom.
-/

namespace Backtest.Expr

open Text

/-! ## Atoms of plain characters -/

theorem isPlain_of_isCallChar {c : Char} (hc : isCallChar c = true) : IsPlain c :=
  ⟨not_isBlank_of_isCallChar hc, not_mem_of_all (by decide +kernel) hc⟩

/-- An operator without a special character is written with letters. -/
theorem Mark.mem_operatorWords (sign : Mark) (hplain : ∀ c ∈ sign.word, IsPlain c) :
    sign.word ∈ operatorWords := by
  have hall : ∀ sign : Mark, (∀ c ∈ sign.word, IsPlain c) → sign.word ∈ operatorWords :=
    Mark.forall_of_all (by decide)
  exact hall sign hplain

variable {text : Chars}

theorem proper_of_forall (hne : text ≠ []) (htext : ∀ c ∈ text, IsBare c ∧ IsPlain c)
    (hword : text ∉ operatorWords) : (Word.atom text).Proper := by
  refine ⟨hne, .of_forall htext, ?_⟩
  rintro sign rfl
  exact hword (sign.mem_operatorWords fun c hc => (htext c hc).2)

/-- An atom with a quote or a bracket in it is no operator. -/
theorem proper_of_mem {c : Char} (htext : Outside IsPlain text) (hc : c ∈ text)
    (hbare : ¬ IsBare c) : (Word.atom text).Proper := by
  refine ⟨List.ne_nil_of_mem hc, htext, ?_⟩
  rintro sign rfl
  exact hbare (Mark.of_mem_word hc).1

theorem isWord_of_isIdentifier (htext : isIdentifier text = true) :
    ∀ c ∈ text, isWord c = true := by
  cases text with
  | nil => exact nofun
  | cons first others =>
      rw [isIdentifier, Bool.and_eq_true] at htext
      intro c hc
      rcases List.mem_cons.1 hc with rfl | hc
      · exact isWord_of_isNameStart htext.1
      · exact List.all_eq_true.1 htext.2 c hc

theorem isCallChar_of_isWord {c : Char} (hc : isWord c = true) : isCallChar c = true := by
  rw [isCallChar, hc, Bool.true_or]

/-! ## Tokens -/

namespace NumeralToken

variable (token : NumeralToken)

theorem isNumeralChar : ∀ c ∈ token.text, Decimal.IsNumeralChar c :=
  Decimal.isNumeralChar_of_scriptNumeral? token.reads

theorem nonempty : token.text ≠ [] := by
  intro hnil
  have hreads := token.reads
  rw [hnil] at hreads
  exact nomatch hreads

theorem bare : ∀ c ∈ token.text, IsBare c ∧ IsPlain c := by
  intro c hc
  rcases token.isNumeralChar c hc with hdigit | hmark
  · have hothers : c ∉ ['"', '\'', '(', '[', ')', ']'] := not_mem_of_all (by decide +kernel) hdigit
    have hspecial : c ∉ specials := not_mem_of_all (by decide +kernel) hdigit
    exact ⟨.of_not_mem hothers, not_isBlank_of_isDigit hdigit, hspecial⟩
  · have hall : ∀ c ∈ Decimal.numeralMarks, c ≠ '+' → c ≠ '-' → IsBare c ∧ IsPlain c := by decide
    apply hall c hmark
    · rintro rfl
      exact token.unsigned.1 hc
    · rintro rfl
      exact token.unsigned.2 hc

theorem unreserved : token.text ∉ operatorWords := by
  intro hword
  have hall : ∀ word ∈ operatorWords, ∃ c ∈ word, isDigit c = false ∧ c ∉ Decimal.numeralMarks := by
    decide
  obtain ⟨c, hc, hdigit, hmark⟩ := hall token.text hword
  rcases token.isNumeralChar c hc with hc | hc
  · rw [hdigit] at hc
    exact nomatch hc
  · exact hmark hc

theorem proper : (Word.atom token.text).Proper :=
  proper_of_forall token.nonempty token.bare token.unreserved

end NumeralToken

namespace NameToken

variable (token : NameToken)

theorem isWord : ∀ c ∈ token.text, isWord c = true := isWord_of_isIdentifier token.identifier

theorem nonempty : token.text ≠ [] := by
  intro hnil
  have hname := token.identifier
  rw [hnil] at hname
  exact nomatch hname

theorem bare : ∀ c ∈ token.text, IsBare c ∧ IsPlain c := fun c hc =>
  have hchar := isCallChar_of_isWord (token.isWord c hc)
  ⟨.of_isCallChar hchar, isPlain_of_isCallChar hchar⟩

theorem proper : (Word.atom token.text).Proper :=
  proper_of_forall token.nonempty token.bare fun hword =>
    token.unreserved (List.mem_append_left _ hword)

end NameToken

theorem proper_truth (value : Bool) :
    (Word.atom (if value then "true".toList else "false".toList)).Proper := by
  cases value <;> exact proper_of_forall (by decide) (by decide) (by decide)

theorem TextToken.proper (token : TextToken) :
    (Word.atom (token.mark :: (token.content ++ [token.mark]))).Proper := by
  have hcontent : token.mark ∉ token.content := by
    intro hmem
    have hquote := token.unquoted _ hmem
    rw [token.quote] at hquote
    exact nomatch hquote
  refine proper_of_mem (.quoted token.quote hcontent .nil) List.mem_cons_self ?_
  intro hbare
  have hquote := hbare.1
  rw [token.quote] at hquote
  exact nomatch hquote

theorem proper_history (token : NameToken) {count : Chars}
    (hcount : ∀ c ∈ count, isDigit c = true) :
    (Word.atom (token.text ++ '[' :: (count ++ [']']))).Proper := by
  have hinner : Outside (fun _ => True) count := by
    apply Outside.of_forall
    intro c hc
    have hothers : c ∉ ['"', '\'', '(', '[', ')', ']'] :=
      not_mem_of_all (by decide +kernel) (hcount c hc)
    exact ⟨.of_not_mem hothers, trivial⟩
  exact proper_of_mem (Outside.append (.of_forall token.bare) (.square hinner .nil))
    (List.mem_append_right _ List.mem_cons_self) (by decide)

theorem isCallName_name (builtin : Builtin) : isCallName builtin.name.toList = true := by
  cases builtin <;> decide

theorem proper_call (builtin : Builtin) {texts : List Chars}
    (htexts : ∀ text ∈ texts, IsArgument text) :
    (Word.atom (callText builtin.name.toList texts)).Proper := by
  have hname : Outside IsPlain builtin.name.toList := by
    apply Outside.of_forall
    intro c hc
    have hchar := isCallChar_of_isCallName (isCallName_name builtin) c hc
    exact ⟨.of_isCallChar hchar, isPlain_of_isCallChar hchar⟩
  have hinner : Outside (fun _ => True) (commas texts) :=
    .commas (fun text htext => (htexts text htext).outside.inside) trivial trivial
  exact proper_of_mem (hname.append (.round hinner .nil))
    (List.mem_append_right _ List.mem_cons_self) (by decide)

variable {words left right : List Word} {level : Nat} {sign : Mark}

/-- A sentence in brackets is an atom. -/
theorem proper_bracketed (hwords : ∀ word ∈ words, word.Proper) :
    (Word.atom (bracketed words)).Proper :=
  proper_of_mem (closed_spell hwords).wrap List.mem_cons_self (by decide)

/-! ## Terms -/

/-- An operand binds at least as tightly as the bound that it was put in brackets for. -/
theorem Tight.grouped (hwords : Tight level words) (floor : Nat) :
    Tight floor (grouped floor level words) := by
  rw [Expr.grouped]
  split
  · exact .atom (proper_bracketed hwords.proper) floor
  · next hfloor => exact hwords.mono (Nat.not_lt.1 hfloor)

theorem Tight.isArgument (hwords : Tight level words) : IsArgument (spell words) where
  nonempty := hwords.spell_ne_nil
  trimmed := isTrimmed_spell hwords.proper
  outside := by
    have hmarks : ∀ sign : Mark, ∀ c ∈ sign.word, c ≠ ',' := Mark.forall_of_all (by decide)
    apply outside_spell hwords.proper (by decide) _ hmarks
    rintro c hc rfl
    exact hc.2 (by decide)

namespace Term

mutual

/-- The operators of a printed term bind at least as tightly as its root. -/
theorem tight : ∀ term : Term, Tight term.level term.words
  | .numeral token => .atom token.proper 9
  | .name token => .atom token.proper 9
  | .truth value => .atom (proper_truth value) 9
  | .text token => .atom token.proper 9
  | .history token count => .atom (proper_history token count.digits) 9
  | .call builtin arguments => .atom (proper_call builtin (isArgument_texts arguments)) 9
  | .operation kind left right =>
      have hright := (right.tight.grouped ((Mark.operation kind).level + 1)).mono (Nat.le_succ _)
      (left.tight.grouped _).join hright.proper hright.binds (Nat.le_refl _)
  | .comparison kind left right =>
      have hleft := (left.tight.grouped ((Mark.comparison kind).level + 1)).mono (Nat.le_succ _)
      have hright := (right.tight.grouped ((Mark.comparison kind).level + 1)).mono (Nat.le_succ _)
      hleft.join hright.proper hright.binds (Nat.le_refl _)
  | .negation inner => (inner.tight.grouped _).negate (Nat.le_refl _)
  | .junction kind left right =>
      have hright := right.tight.grouped (Mark.junction kind).level
      (left.tight.grouped _).join hright.proper hright.binds (Nat.le_refl _)
  | .choice condition first second =>
      have hfirst := (first.tight.grouped 1).mono (Nat.zero_le 1)
      have hsecond := second.tight.mono (Nat.zero_le _)
      have hbranches : Tight 0 (Expr.grouped 1 first.level first.words ++
          .mark .colon :: second.words) :=
        hfirst.join hsecond.proper hsecond.binds (Nat.le_refl _)
      ((condition.tight.grouped 1).mono (Nat.zero_le 1)).join hbranches.proper hbranches.binds
        (Nat.le_refl _)

theorem isArgument_texts : ∀ arguments : List Term, ∀ text ∈ texts arguments, IsArgument text
  | [] => nofun
  | term :: rest => by
      intro text htext
      rw [texts] at htext
      rcases List.mem_cons.1 htext with rfl | htext
      · exact term.tight.isArgument
      · exact isArgument_texts rest text htext

end

theorem texts_eq_map (arguments : List Term) : texts arguments = arguments.map print := by
  induction arguments with
  | nil => rfl
  | cons term rest ih => rw [texts, ih]; rfl

end Term

/-! ## Brackets around a whole term -/

theorem isWrapped_cons {c : Char} (hc : c ≠ '(') (rest : Chars) :
    isWrapped (c :: rest) = false := by
  rw [isWrapped]
  intro other hother
  injection hother with hfirst
  exact hc hfirst

theorem isWrapped_of_forall (htext : ∀ c ∈ text, IsBare c ∧ IsPlain c) :
    isWrapped text = false := by
  cases text with
  | nil => rfl
  | cons c rest => exact isWrapped_cons (htext c List.mem_cons_self).1.2.1 rest

/-- Brackets around the first operand of a sentence are not brackets around all of it. -/
theorem Tight.isWrapped_append (hleft : Tight level left) (hright : right ≠ []) :
    isWrapped (spell (left ++ .mark sign :: right)) = false := by
  rw [spell_append_cons hleft.nonempty hright]
  exact isWrapped_append_cons (closed_spell hleft.proper) hleft.spell_ne_nil _

namespace Term

theorem isWrapped_print (term : Term) : isWrapped term.print = false := by
  cases term with
  | numeral token =>
      rw [print, words, spell_atom]
      exact isWrapped_of_forall token.bare
  | name token =>
      rw [print, words, spell_atom]
      exact isWrapped_of_forall token.bare
  | truth value => cases value <;> rfl
  | text token =>
      rw [print, words, spell_atom]
      apply isWrapped_cons
      intro heq
      have hquote := token.quote
      rw [heq] at hquote
      exact nomatch hquote
  | history token count =>
      rw [print, words, spell_atom]
      exact isWrapped_append_cons (.of_forall token.bare) token.nonempty _
  | call builtin arguments =>
      have hchars := isCallChar_of_isCallName (isCallName_name builtin)
      have hname : Outside (fun _ => True) builtin.name.toList :=
        .of_forall fun c hc => ⟨.of_isCallChar (hchars c hc), trivial⟩
      rw [print, words, spell_atom, callText]
      refine isWrapped_append_cons hname ?_ _
      cases builtin <;> decide
  | operation kind left right =>
      exact (left.tight.grouped _).isWrapped_append (right.tight.grouped _).nonempty
  | comparison kind left right =>
      exact (left.tight.grouped _).isWrapped_append (right.tight.grouped _).nonempty
  | negation inner => rfl
  | junction kind left right =>
      exact (left.tight.grouped _).isWrapped_append (right.tight.grouped _).nonempty
  | choice condition first second =>
      apply (condition.tight.grouped 1).isWrapped_append
      intro hnil
      exact (first.tight.grouped 1).nonempty (List.append_eq_nil_iff.1 hnil).1

end Term

/-! ## Lengths -/

theorem length_spell_left (hleft : left ≠ []) (hright : right ≠ []) :
    (spell left).length < (spell (left ++ .mark sign :: right)).length := by
  rw [spell_append_cons hleft hright, List.length_append, List.length_cons]
  omega

theorem length_spell_right (hleft : left ≠ []) (hright : right ≠ []) :
    (spell right).length < (spell (left ++ .mark sign :: right)).length := by
  rw [spell_append_cons hleft hright, List.length_append, List.length_cons, List.length_append,
    List.length_cons]
  omega

theorem length_le_commas {texts : List Chars} (htext : text ∈ texts) :
    text.length ≤ (commas texts).length := by
  induction texts with
  | nil => exact nomatch htext
  | cons first rest ih =>
      cases rest with
      | nil =>
          rw [List.mem_singleton.1 htext]
          exact Nat.le_refl _
      | cons second others =>
          rw [commas_cons, List.length_append, List.length_cons, List.length_cons]
          rcases List.mem_cons.1 htext with rfl | htext
          · omega
          · have := ih htext
            omega

theorem length_lt_callText {name : Chars} {texts : List Chars} (htext : text ∈ texts) :
    text.length < (callText name texts).length := by
  have hle := length_le_commas htext
  rw [callText, List.length_append, List.length_cons, List.length_append, List.length_singleton]
  omega

end Backtest.Expr
