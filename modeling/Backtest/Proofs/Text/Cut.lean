import Backtest.Proofs.Expr.Call
import Mathlib.Data.List.TakeWhile

/-!
# Taking text off the front

Trimming, cutting at a mark and taking a known text or a word off the front only see the text up to
the place where they stop.
-/

namespace Backtest.Text

variable {c mark : Char} {start front back text rest : Chars}

/-- A mark in two texts put together stands in one of them. -/
theorem append_eq_append_cons_iff : front ++ back = start ++ mark :: rest ↔
    (∃ others, front = start ++ mark :: others ∧ rest = others ++ back) ∨
      ∃ others, start = front ++ others ∧ back = others ++ mark :: rest := by
  rw [List.append_eq_append_iff]
  constructor
  · rintro (⟨others, hstart, hback⟩ | ⟨others, hfront, hmark⟩)
    · exact .inr ⟨others, hstart, hback⟩
    · cases others with
      | nil =>
          rw [List.append_nil] at hfront
          exact .inr ⟨[], by rw [hfront, List.append_nil], hmark.symm⟩
      | cons other others =>
          injection hmark with hother hrest
          rw [← hother] at hfront
          exact .inl ⟨others, hfront, hrest⟩
  · rintro (⟨others, hfront, hrest⟩ | ⟨others, hstart, hback⟩)
    · exact .inr ⟨mark :: others, hfront, by rw [hrest, List.cons_append]⟩
    · exact .inl ⟨others, hstart, hback⟩

theorem suffix_append_iff : rest <:+ front ++ back ↔
    rest <:+ back ∨ ∃ part, part <:+ front ∧ rest = part ++ back := by
  constructor
  · rintro ⟨skipped, hskipped⟩
    rcases List.append_eq_append_iff.1 hskipped with ⟨part, hfront, hpart⟩ | ⟨others, _, hback⟩
    · exact .inr ⟨part, ⟨skipped, hfront.symm⟩, hpart⟩
    · exact .inl ⟨others, hback.symm⟩
  · rintro (hback | ⟨part, ⟨skipped, hfront⟩, rfl⟩)
    · exact hback.trans (List.suffix_append front back)
    · exact ⟨skipped, by rw [← hfront, List.append_assoc]⟩

theorem after?_eq_some_iff : after? start text = some rest ↔ text = start ++ rest := by
  rw [after?]
  split
  · next hprefix =>
      obtain ⟨other, rfl⟩ := List.isPrefixOf_iff_prefix.1 hprefix
      simp
  · next hprefix =>
      constructor
      · exact nofun
      · rintro rfl
        exact absurd (List.isPrefixOf_iff_prefix.2 (List.prefix_append start rest)) hprefix

theorem after?_cons_of_ne (hmark : c ≠ mark) (start rest : Chars) :
    after? (mark :: start) (c :: rest) = none := by
  rw [Option.eq_none_iff_forall_ne_some]
  intro found hfound
  rw [after?_eq_some_iff] at hfound
  injection hfound with hfirst
  exact hmark hfirst

/-- A text that is taken off the front ends before a mark that it does not hold. -/
theorem after?_append_cons (hmark : mark ∉ start) (front back : Chars) :
    after? start (front ++ mark :: back) = (after? start front).map (· ++ mark :: back) := by
  ext rest
  rw [after?_eq_some_iff, Option.map_eq_some_iff]
  constructor
  · intro heq
    rcases append_eq_append_cons_iff.1 heq.symm with ⟨others, hstart, _⟩ | ⟨others, hfront, hrest⟩
    · rw [hstart] at hmark
      exact absurd (List.mem_append_right front List.mem_cons_self) hmark
    · exact ⟨others, after?_eq_some_iff.2 hfront, hrest.symm⟩
  · rintro ⟨others, hothers, rfl⟩
    rw [after?_eq_some_iff.1 hothers, List.append_assoc]

theorem trimLeft_append_cons (hc : isBlank c = false) (front back : Chars) :
    trimLeft (front ++ c :: back) = trimLeft front ++ c :: back := by
  induction front with
  | nil => simp [trimLeft, hc]
  | cons first front ih =>
      rw [trimLeft, trimLeft] at ih ⊢
      rw [List.cons_append, List.dropWhile_cons, List.dropWhile_cons]
      split
      · exact ih
      · rfl

theorem trimRight_append_cons {c : Char} (hc : isBlank c = false) (front back : Chars) :
    trimRight (front ++ c :: back) = front ++ c :: trimRight back := by
  have hleft := trimLeft_append_cons hc back.reverse front.reverse
  rw [trimLeft, trimLeft] at hleft
  rw [trimRight, List.reverse_append, List.reverse_cons, List.append_assoc, List.singleton_append,
    hleft, List.reverse_append, List.reverse_cons, List.reverse_reverse, List.append_assoc,
    List.singleton_append, trimRight]

/-- Trimming takes nothing away between two characters that are no white space. -/
theorem trim_between {c d : Char} (hc : isBlank c = false) (hd : isBlank d = false)
    (front middle back : Chars) :
    trim (front ++ c :: (middle ++ d :: back)) =
      trimLeft front ++ c :: (middle ++ d :: trimRight back) := by
  rw [trim, trimLeft_append_cons hc, ← List.cons_append, ← List.append_assoc,
    trimRight_append_cons hd, List.append_assoc, List.cons_append]

theorem trimLeft_eq_self (htext : ∀ c, text.head? = some c → isBlank c = false) :
    trimLeft text = text :=
  @dropWhile_blank [] text nofun htext

theorem trimLeft_blank_cons (hfront : ∀ c ∈ front, isBlank c = true) (hc : isBlank c = false)
    (rest : Chars) : trimLeft (front ++ c :: rest) = c :: rest := by
  apply dropWhile_blank hfront
  intro first hfirst
  injection hfirst with hfirst
  rw [← hfirst, hc]

theorem trimLeft_isSuffix (text : Chars) : trimLeft text <:+ text := List.dropWhile_suffix _

theorem cutAt_eq_some_iff :
    cutAt mark text = some (front, rest) ↔ text = front ++ mark :: rest ∧ mark ∉ front := by
  constructor
  · intro hcut
    rw [cutAt] at hcut
    split at hcut
    · cases hcut
    · next other others hdrop =>
        injection hcut with hcut
        injection hcut with hfront hrest
        have hstop : (other != mark) = false := by
          have hhead := List.head?_dropWhile_not (· != mark) text
          rw [hdrop] at hhead
          simpa using hhead
        rw [bne_eq_false_iff_eq] at hstop
        rw [hstop, hrest] at hdrop
        refine ⟨?_, ?_⟩
        · rw [← hfront, ← hdrop, List.takeWhile_append_dropWhile]
        · intro hmem
          rw [← hfront] at hmem
          have hne := List.mem_takeWhile_imp hmem
          rw [bne_self_eq_false] at hne
          cases hne
  · rintro ⟨rfl, hfront⟩
    exact Expr.cutAt_append hfront

theorem cutAt_eq_none_iff : cutAt mark text = none ↔ mark ∉ text := by
  constructor
  · intro hcut hmem
    obtain ⟨front, rest, htext, hfront⟩ := List.eq_append_cons_of_mem hmem
    rw [cutAt_eq_some_iff.2 ⟨htext, hfront⟩] at hcut
    exact nomatch hcut
  · intro hmem
    cases hcut : cutAt mark text with
    | none => rfl
    | some parts =>
        obtain ⟨htext, _⟩ := cutAt_eq_some_iff.1 hcut
        exact absurd (by simp [htext]) hmem

theorem pieces_append_cons (hfront : mark ∉ front) (back : Chars) :
    pieces mark (front ++ mark :: back) = front :: pieces mark back := by
  induction front with
  | nil => rw [List.nil_append, pieces, if_pos rfl]
  | cons c rest ih =>
      rw [List.mem_cons, not_or] at hfront
      rw [List.cons_append, pieces, if_neg (Ne.symm hfront.1), ih hfront.2]

theorem pieces_of_notMem (htext : mark ∉ text) : pieces mark text = [text] := by
  induction text with
  | nil => rfl
  | cons c rest ih =>
      rw [List.mem_cons, not_or] at htext
      rw [pieces, if_neg (Ne.symm htext.1), ih htext.2]

/-! ## Words -/

theorem not_isWord_of_isBlank {c : Char} (hc : isBlank c = true) : isWord c = false := by
  rw [Bool.eq_false_iff]
  intro hword
  rw [not_isBlank_of_all (by decide +kernel) hword] at hc
  exact nomatch hc

theorem takeWhile_append_of_stop {α : Type} {p : α → Bool} {front rest : List α}
    (hfront : ∀ c ∈ front, p c = true) (hrest : ∀ c, rest.head? = some c → p c = false) :
    (front ++ rest).takeWhile p = front := by
  rw [List.takeWhile_append_of_pos hfront]
  cases rest with
  | nil => rw [List.takeWhile_nil, List.append_nil]
  | cons c rest =>
      rw [List.takeWhile_cons, hrest c rfl, if_neg Bool.false_ne_true, List.append_nil]

theorem dropWhile_append_of_stop {α : Type} {p : α → Bool} {front rest : List α}
    (hfront : ∀ c ∈ front, p c = true) (hrest : ∀ c, rest.head? = some c → p c = false) :
    (front ++ rest).dropWhile p = rest := by
  rw [List.dropWhile_append_of_pos hfront]
  cases rest with
  | nil => rfl
  | cons c rest => rw [List.dropWhile_cons, hrest c rfl, if_neg Bool.false_ne_true]

theorem endsWord_iff : endsWord text = true ↔ ∀ c, text.head? = some c → isWord c = false := by
  cases text with
  | nil => exact ⟨fun _ _ => nofun, fun _ => rfl⟩
  | cons c rest =>
      rw [endsWord, Bool.not_eq_true']
      constructor
      · intro hc d hd
        injection hd with hd
        rw [← hd, hc]
      · exact fun hrest => hrest c rfl

theorem endsWord_dropWhile (text : Chars) : endsWord (text.dropWhile isWord) = true := by
  have hhead := List.head?_dropWhile_not isWord text
  cases hdrop : text.dropWhile isWord with
  | nil => rfl
  | cons c rest =>
      rw [hdrop, List.head?_cons] at hhead
      rw [endsWord, Bool.not_eq_true']
      simpa using hhead

end Backtest.Text
