import Backtest.Expr.Evaluate
import Backtest.Proofs.Text.Cut
import Backtest.Proofs.Text.Line
import Mathlib.Data.List.TakeDrop
import Mathlib.Data.List.TakeWhile

/-!
# Parts of an expression

Whatever is evaluated on the way to the value of a text stands within this text and is shorter: the
sides of a split, what follows a negation, the arguments of a call.
-/

namespace Backtest.Expr

open Text

/-- A text that stands within another one and is shorter. -/
structure Part (text whole : Chars) : Prop where
  within : text <:+: whole
  shorter : text.length < whole.length

variable {text whole left right : Chars}

theorem Part.trans {inner : Chars} (hinner : Part inner text) (htext : Part text whole) :
    Part inner whole :=
  ⟨hinner.within.trans htext.within, Nat.lt_trans hinner.shorter htext.shorter⟩

theorem trim_isInfix (text : Chars) : trim text <:+: text :=
  (trimRight_isPrefix _).isInfix.trans (trimLeft_isSuffix text).isInfix

theorem length_trim_le (text : Chars) : (trim text).length ≤ text.length :=
  (trim_isInfix text).length_le

/-- The text between the brackets around a whole text. -/
theorem part_of_isWrapped (hwrapped : isWrapped text = true) :
    Part (text.drop 1).dropLast text := by
  cases text with
  | nil => exact nomatch hwrapped
  | cons c rest =>
      refine ⟨(List.dropLast_prefix _).isInfix.trans (List.drop_suffix 1 (c :: rest)).isInfix, ?_⟩
      rw [List.drop_one, List.tail_cons, List.length_dropLast, List.length_cons]
      omega

/-! ## Splits -/

theorem part_of_mem_splitsFrom {op before rest : Chars} {state : Nesting}
    (hsplit : (left, right) ∈ splitsFrom op state before rest) :
    Part left (before.reverse ++ rest) ∧ Part right (before.reverse ++ rest) := by
  induction rest generalizing state before with
  | nil => exact absurd hsplit List.not_mem_nil
  | cons c rest ih =>
      have hlater : (left, right) ∈ splitsFrom op (state.step c).1 (c :: before) rest →
          Part left (before.reverse ++ c :: rest) ∧ Part right (before.reverse ++ c :: rest) := by
        intro hmem
        have hparts := ih hmem
        rwa [List.reverse_cons, List.append_assoc, List.singleton_append] at hparts
      rw [splitsFrom] at hsplit
      dsimp only at hsplit
      split at hsplit
      · split at hsplit
        · exact hlater hsplit
        · next hfilled =>
            rcases List.mem_cons.1 hsplit with hhit | hmem
            · obtain ⟨rfl, rfl⟩ := Prod.mk.inj hhit
              have hbefore : 0 < before.length := by
                cases before with
                | nil => exact absurd (Bool.or_eq_true_iff.2 (.inl rfl)) hfilled
                | cons d others => exact Nat.succ_pos _
              have hright := length_trim_le ((c :: rest).drop op.length)
              have hleft := length_trim_le before.reverse
              rw [List.length_drop, List.length_cons] at hright
              rw [List.length_reverse] at hleft
              constructor
              · refine ⟨(trim_isInfix _).trans (List.prefix_append _ _).isInfix, ?_⟩
                rw [List.length_append, List.length_reverse, List.length_cons]
                omega
              · refine ⟨(trim_isInfix _).trans ((List.drop_suffix _ _).isInfix.trans
                  (List.suffix_append _ _).isInfix), ?_⟩
                rw [List.length_append, List.length_reverse, List.length_cons]
                omega
            · exact hlater hmem
      · exact hlater hsplit

/-- Both sides of a split are parts of the text. -/
theorem part_of_mem_splits {op : Chars} (hsplit : (left, right) ∈ splits op text) :
    Part left text ∧ Part right text := part_of_mem_splitsFrom hsplit

theorem part_of_firstSplit {op : Chars} (hsplit : firstSplit op text = some (left, right)) :
    Part left text ∧ Part right text :=
  part_of_mem_splits (List.mem_of_mem_head? hsplit)

theorem part_of_after? {start rest : Chars} (hstart : start ≠ [])
    (hrest : after? start text = some rest) : Part rest text := by
  obtain rfl := after?_eq_some_iff.1 hrest
  refine ⟨(List.suffix_append _ _).isInfix, ?_⟩
  have hpositive := List.length_pos_iff.2 hstart
  rw [List.length_append]
  omega

theorem part_of_negated? {rest : Chars} (hrest : negated? text = some rest) : Part rest text := by
  rw [negated?] at hrest
  split at hrest
  · next other hother =>
      injection hrest with hrest
      exact hrest ▸ part_of_after? (List.cons_ne_nil _ _) hother
  · exact part_of_after? (List.cons_ne_nil _ _) hrest

/-! ## Arguments -/

/-- Each argument stands in the text of the arguments. -/
theorem infix_of_mem_argumentsFrom {state : Nesting} {before text part : Chars}
    (hpart : part ∈ argumentsFrom state before text) : part <:+: before.reverse ++ text := by
  induction text generalizing state before with
  | nil =>
      rw [argumentsFrom] at hpart
      rw [List.append_nil]
      split at hpart
      · exact absurd hpart List.not_mem_nil
      · rw [List.mem_singleton.1 hpart]
        exact trim_isInfix _
  | cons c rest ih =>
      rw [argumentsFrom] at hpart
      split at hpart
      · rcases List.mem_cons.1 hpart with rfl | hpart
        · exact (trim_isInfix _).trans (List.prefix_append _ _).isInfix
        · have hrest := (ih hpart).trans (List.suffix_cons c rest).isInfix
          exact hrest.trans (List.suffix_append _ _).isInfix
      · have hrest := ih hpart
        rwa [List.reverse_cons, List.append_assoc, List.singleton_append] at hrest

theorem infix_of_mem_arguments {part : Chars} (hpart : part ∈ arguments text) : part <:+: text :=
  infix_of_mem_argumentsFrom hpart

theorem trim_of_mem_argumentsFrom {state : Nesting} {before text part : Chars}
    (hpart : part ∈ argumentsFrom state before text) : trim part = part := by
  induction text generalizing state before with
  | nil =>
      rw [argumentsFrom] at hpart
      split at hpart
      · cases hpart
      · rw [List.mem_singleton.1 hpart, trim_trim]
  | cons c rest ih =>
      rw [argumentsFrom] at hpart
      split at hpart
      · rcases List.mem_cons.1 hpart with rfl | hpart
        · exact trim_trim _
        · exact ih hpart
      · exact ih hpart

theorem trim_of_mem_arguments {part : Chars} (hpart : part ∈ arguments text) : trim part = part :=
  trim_of_mem_argumentsFrom hpart

/-- A call is a name before brackets that close at the end, with the arguments between them. -/
theorem eq_of_call? {call : Call} (hcall : call? text = some call) :
    ∃ before inner, text = before ++ '(' :: inner ∧ isWrapped ('(' :: inner) = true ∧
      call = ⟨String.ofList (trim before), arguments inner.dropLast⟩ := by
  rw [call?] at hcall
  split at hcall
  · cases hcall
  · next before inner hcut =>
      dsimp only at hcall
      split at hcall
      · next hform =>
          injection hcall with hcall
          have htext := (cutAt_eq_some_iff.1 hcut).1
          exact ⟨before, inner, htext, (Bool.and_eq_true_iff.1 hform).1, hcall.symm⟩
      · cases hcall

theorem trim_of_mem_call {call : Call} (hcall : call? text = some call) {part : Chars}
    (hpart : part ∈ call.arguments) : trim part = part := by
  obtain ⟨before, inner, _, _, rfl⟩ := eq_of_call? hcall
  exact trim_of_mem_arguments hpart

/-- The arguments of a call are parts of its text. -/
theorem part_of_mem_call {call : Call} (hcall : call? text = some call) {part : Chars}
    (hpart : part ∈ call.arguments) : Part part text := by
  obtain ⟨before, inner, rfl, _, rfl⟩ := eq_of_call? hcall
  have hstands := (infix_of_mem_arguments hpart).trans (List.dropLast_prefix inner).isInfix
  refine ⟨hstands.trans ⟨before ++ ['('], [], by simp⟩, ?_⟩
  have hshort := hstands.length_le
  rw [List.length_append, List.length_cons]
  omega

/-- The name of a call stands in its text. -/
theorem name_of_call? {call : Call} (hcall : call? text = some call) :
    call.name.toList <:+: text := by
  obtain ⟨before, inner, rfl, _, rfl⟩ := eq_of_call? hcall
  rw [String.toList_ofList]
  exact (trim_isInfix before).trans (List.prefix_append _ _).isInfix

/-- A call has a name and two brackets. -/
theorem length_name_of_call? {call : Call} (hcall : call? text = some call) :
    call.name.toList.length + 2 ≤ text.length := by
  obtain ⟨before, inner, rfl, hwrapped, rfl⟩ := eq_of_call? hcall
  have hclosed : inner ≠ [] := by
    intro hinner
    rw [hinner] at hwrapped
    exact absurd hwrapped (by decide)
  have hinner := List.length_pos_iff.2 hclosed
  have hname := length_trim_le before
  rw [String.toList_ofList, List.length_append, List.length_cons]
  omega

/-- A history is a name and a number of bars in brackets. -/
theorem eq_of_history? {name shown : Chars} (hparts : history? text = some (name, shown)) :
    text = name ++ '[' :: (shown ++ [']']) := by
  rw [history?] at hparts
  split at hparts
  · exact nomatch hparts
  · next hspan =>
      rw [List.span_eq_takeWhile_dropWhile] at hspan
      split at hparts
      · exact nomatch hparts
      · next hcount =>
          rw [List.span_eq_takeWhile_dropWhile] at hcount
          injection hparts with hparts
          obtain ⟨rfl, rfl⟩ := Prod.mk.inj hparts
          obtain ⟨hname, hrest⟩ := Prod.mk.inj hspan
          obtain ⟨hdigits, hend⟩ := Prod.mk.inj hcount
          rw [← List.takeWhile_append_dropWhile (p := isWord) (l := text), hname, hrest,
            ← hend, ← hdigits, List.takeWhile_append_dropWhile]
      · exact nomatch hparts
  · exact nomatch hparts

theorem isWord_of_history? {name shown : Chars} (hparts : history? text = some (name, shown)) :
    ∀ c ∈ name, isWord c = true := by
  rw [history?] at hparts
  split at hparts
  · exact nomatch hparts
  · next hspan =>
      rw [List.span_eq_takeWhile_dropWhile] at hspan
      injection hspan with htaken _
      split at hparts
      · exact nomatch hparts
      · injection hparts with hparts
        injection hparts with hname _
        intro c hc
        rw [← hname, ← htaken] at hc
        exact List.mem_takeWhile_imp hc
      · exact nomatch hparts
  · exact nomatch hparts

theorem digits_of_history? {text name shown : Chars}
    (hparts : history? text = some (name, shown)) : ∀ c ∈ shown, isDigit c = true := by
  rw [history?] at hparts
  split at hparts
  · exact nomatch hparts
  · split at hparts
    · exact nomatch hparts
    · next rest _ _ _ _ hspan =>
        rw [List.span_eq_takeWhile_dropWhile] at hspan
        injection hparts with hparts
        injection hparts with _ hshown
        injection hspan with htaken _
        intro c hc
        rw [← hshown, ← htaken] at hc
        exact List.mem_takeWhile_imp hc
    · exact nomatch hparts
  · exact nomatch hparts

theorem not_mem_of_history? {text name shown : Chars}
    (hparts : history? text = some (name, shown)) : '-' ∉ shown := by
  intro hmem
  exact absurd (digits_of_history? hparts '-' hmem) (by decide)

end Backtest.Expr
