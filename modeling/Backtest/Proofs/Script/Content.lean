import Backtest.Proofs.Script.Comment
import Mathlib.Data.List.TakeWhile
import Mathlib.Order.Monotone.Defs

/-!
# Lines with content

A line has no content if there is nothing after the white space at its front, or a comment.  All
other lines are content lines, in their order, with their numbers and with the width of the white
space at their front.

Lines without content may be put in anywhere (`Padded`).  The content lines stay the same but for
their numbers, which move up (`Padded.exists_moves`).
-/

namespace Backtest.Script

open Text

/-- White space, and after it nothing or a comment. -/
def IsFiller (raw : Chars) : Prop := trimLeft raw = [] ∨ ['/', '/'] <+: trimLeft raw

instance (raw : Chars) : Decidable (IsFiller raw) := inferInstanceAs (Decidable (_ ∨ _))

/-- The width of the white space at the front of a line, with its tabs widened. -/
def indentation (raw : Chars) : Nat := ((widenTabs raw).takeWhile isBlank).length

/-- A text has a line with this number, counted from one. -/
def HasLine (code : Chars) (number : Nat) (raw : Chars) : Prop :=
  (raw, number) ∈ (lines code).zipIdx 1

instance (code : Chars) (number : Nat) (raw : Chars) : Decidable (HasLine code number raw) :=
  inferInstanceAs (Decidable (_ ∈ _))

/-- A text has a line with content that has this number and this indentation. -/
def StandsAt (code : Chars) (number indent : Nat) : Prop :=
  ∃ raw, HasLine code number raw ∧ ¬ IsFiller raw ∧ indentation raw = indent

/-! ## What has content -/

section Content

variable {raw text : Chars}

theorem trim_eq_nil_iff : trim text = [] ↔ ∀ c ∈ text, isBlank c = true := by
  constructor
  · intro hnil c hc
    by_contra hblank
    have hmem := mem_trim hc (Bool.eq_false_iff.2 hblank)
    rw [hnil] at hmem
    exact absurd hmem List.not_mem_nil
  · intro hall
    have hleft : trimLeft text = [] := List.dropWhile_eq_nil_iff.2 hall
    rw [trim, hleft]
    rfl

theorem forall_isBlank_trimRight :
    (∀ c ∈ trimRight text, isBlank c = true) ↔ ∀ c ∈ text, isBlank c = true := by
  obtain ⟨back, hback, htext⟩ := exists_trimRight_append text
  constructor
  · intro hall c hc
    rw [htext] at hc
    rcases List.mem_append.1 hc with hfront | hlater
    · exact hall c hfront
    · exact hback c hlater
  · intro hall c hc
    exact hall c ((trimRight_isPrefix text).subset hc)

theorem mem_widenTabsFrom {column : Nat} {c : Char} (hc : c ∈ text) (hblank : isBlank c = false) :
    c ∈ widenTabsFrom column text := by
  induction text generalizing column with
  | nil => exact absurd hc List.not_mem_nil
  | cons first rest ih =>
      rcases List.mem_cons.1 hc with rfl | hrest
      · have htab : c ≠ '\t' := by
          rintro rfl
          exact absurd hblank (by decide)
        rw [widenTabsFrom_cons column htab]
        exact List.mem_cons_self
      · by_cases htab : first = '\t'
        · rw [htab, widenTabsFrom_tab]
          exact List.mem_append_right _ (ih hrest)
        · rw [widenTabsFrom_cons column htab]
          exact List.mem_cons_of_mem _ (ih hrest)

theorem forall_isBlank_widenTabs :
    (∀ c ∈ widenTabs text, isBlank c = true) ↔ ∀ c ∈ text, isBlank c = true := by
  constructor
  · intro hall c hc
    by_contra hblank
    exact hblank (hall c (mem_widenTabsFrom hc (Bool.eq_false_iff.2 hblank)))
  · exact fun hall c hc => isBlank_of_mem_widenTabsFrom hall hc

/-- There is only white space before the comment. -/
theorem forall_isBlank_beforeComment :
    (∀ c ∈ beforeComment none raw, isBlank c = true) ↔ IsFiller raw := by
  induction raw with
  | nil =>
      rw [beforeComment]
      exact iff_of_true (List.forall_mem_nil _) (.inl rfl)
  | cons c rest ih =>
      by_cases hblank : isBlank c = true
      · have hquote : isQuote c = false := by
          by_contra hquote
          rw [not_isBlank_of_isQuote (Bool.not_eq_false _ ▸ hquote)] at hblank
          cases hblank
        have hslash : c ≠ '/' := by
          rintro rfl
          exact absurd hblank (by decide)
        have hleft : trimLeft (c :: rest) = trimLeft rest := List.dropWhile_cons_of_pos hblank
        rw [beforeComment_plain isMark_none hquote hslash, List.forall_mem_cons, IsFiller, hleft,
          ih]
        exact and_iff_right hblank
      · have hleft : trimLeft (c :: rest) = c :: rest := List.dropWhile_cons_of_neg hblank
        rw [beforeComment, IsFiller, hleft]
        by_cases hcomment : c = '/' ∧ rest.head? = some '/'
        · obtain ⟨rfl, hsecond⟩ := hcomment
          obtain ⟨later, rfl⟩ := List.head?_eq_some_iff.1 hsecond
          exact iff_of_true (List.forall_mem_nil _) (.inr ⟨later, rfl⟩)
        · have hfiller : ¬ (c :: rest = [] ∨ ['/', '/'] <+: c :: rest) := by
            rintro (hnil | ⟨later, hlater⟩)
            · cases hnil
            · injection hlater with hfirst hsecond
              exact hcomment ⟨hfirst.symm, hsecond ▸ rfl⟩
          refine iff_of_false (fun hall => ?_) hfiller
          have hfirst : ¬ (c == '/' && rest.head? == some '/') = true := by
            rw [Bool.and_eq_true, beq_iff_eq, beq_iff_eq]
            exact hcomment
          rw [if_neg hfirst] at hall
          split at hall <;> exact hblank (hall c List.mem_cons_self)

theorem stripComment_widenTabs (raw : Chars) :
    stripComment (widenTabs raw) = trimRight (widenTabs (beforeComment none raw)) := by
  rw [stripComment, widenTabs, beforeComment_widenTabsFrom isMark_none, widenTabs]

theorem ofText?_eq_none_iff {number : Nat} : Line.ofText? number raw = none ↔ IsFiller raw := by
  have hempty : trim (stripComment (widenTabs raw)) = [] ↔ IsFiller raw := by
    rw [trim_eq_nil_iff, stripComment_widenTabs, forall_isBlank_trimRight,
      forall_isBlank_widenTabs, forall_isBlank_beforeComment]
  rw [← hempty, Line.ofText?]
  split
  · next htext => exact iff_of_true rfl (List.isEmpty_iff.1 htext)
  · next htext => exact iff_of_false (Option.some_ne_none _) (mt List.isEmpty_iff.2 htext)

theorem indentation_of_ofText? {number : Nat} {line : Line}
    (hread : Line.ofText? number raw = some line) :
    line.number = number ∧ line.indent = indentation raw := by
  rw [Line.ofText?] at hread
  split at hread
  · cases hread
  · next htext =>
      injection hread with hread
      rw [← hread]
      refine ⟨rfl, ?_⟩
      -- What is shown is a front of the line that goes beyond the white space.
      obtain ⟨back, hback⟩ : stripComment (widenTabs raw) <+: widenTabs raw :=
        (trimRight_isPrefix _).trans (beforeComment_isPrefix none _)
      have hbeyond : ((stripComment (widenTabs raw)).takeWhile isBlank).length ≠
          (stripComment (widenTabs raw)).length := by
        intro hlength
        have hwhole := (List.takeWhile_prefix isBlank).eq_of_length hlength
        have hall := List.takeWhile_eq_self_iff.1 hwhole
        exact htext (List.isEmpty_iff.2 (trim_eq_nil_iff.2 hall))
      have hsplit := congrArg List.length
        (List.takeWhile_append_dropWhile (p := isBlank) (l := stripComment (widenTabs raw)))
      rw [List.length_append] at hsplit
      rw [indentation, ← hback, List.takeWhile_append, if_neg hbeyond, hback, trimLeft]
      exact Nat.sub_eq_of_eq_add hsplit.symm

end Content

/-! ## Content lines -/

/-- The content lines among some numbered lines. -/
def contentOf (entries : List (Chars × Nat)) : List Line :=
  entries.filterMap fun entry => Line.ofText? entry.2 entry.1

section Lines

variable {code : Chars} {line : Line}

theorem contentLines_eq (code : Chars) :
    contentLines code = contentOf ((lines code).zipIdx 1) := rfl

theorem standsAt_of_mem_contentLines (hline : line ∈ contentLines code) :
    StandsAt code line.number line.indent := by
  obtain ⟨⟨raw, number⟩, hentry, hread⟩ := List.mem_filterMap.1 hline
  obtain ⟨rfl, hindent⟩ := indentation_of_ofText? hread
  refine ⟨raw, hentry, fun hfiller => ?_, hindent.symm⟩
  rw [ofText?_eq_none_iff.2 hfiller] at hread
  cases hread

/-- Content lines stand in the order of their numbers. -/
theorem pairwise_contentLines (code : Chars) :
    ((contentLines code).map (·.number)).Pairwise (· < ·) := by
  have hrising : ((lines code).zipIdx 1).Pairwise fun first second => first.2 < second.2 := by
    rw [← List.pairwise_map (f := Prod.snd), List.zipIdx_map_snd]
    exact List.pairwise_lt_range'
  rw [List.pairwise_map, contentLines, List.pairwise_filterMap]
  apply hrising.imp
  intro first second hlt line hline other hother
  rw [(indentation_of_ofText? hline).1, (indentation_of_ofText? hother).1]
  exact hlt

theorem le_number_of_mem_contentOf {texts : List Chars} {first : Nat}
    (hline : line ∈ contentOf (texts.zipIdx first)) : first ≤ line.number := by
  obtain ⟨⟨raw, number⟩, hentry, hread⟩ := List.mem_filterMap.1 hline
  rw [(indentation_of_ofText? hread).1]
  exact (List.mem_zipIdx hentry).1

end Lines

/-! ## Lines without content -/

/-- Lines with others put in between that have no content. -/
inductive Padded : List Chars → List Chars → Prop where
  | nil : Padded [] []
  | keep (raw : Chars) {before after : List Chars} (hrest : Padded before after) :
      Padded (raw :: before) (raw :: after)
  | insert {filler : Chars} (hfiller : IsFiller filler) {before after : List Chars}
      (hrest : Padded before after) : Padded before (filler :: after)

theorem Padded.refl (texts : List Chars) : Padded texts texts := by
  induction texts with
  | nil => exact .nil
  | cons raw rest ih => exact .keep raw ih

theorem Padded.append {front front' back back' : List Chars} (hfront : Padded front front')
    (hback : Padded back back') : Padded (front ++ back) (front' ++ back') := by
  induction hfront with
  | nil => exact hback
  | keep raw _ ih => exact .keep raw ih
  | insert hfiller _ ih => exact .insert hfiller ih

/-! ## Numbers after padding -/

/-- The same line with another number. -/
def Line.renumbered (renumber : Nat → Nat) (line : Line) : Line :=
  { line with number := renumber line.number }

theorem ofText?_renumbered (renumber : Nat → Nat) (number : Nat) (raw : Chars) :
    Line.ofText? (renumber number) raw =
      (Line.ofText? number raw).map (Line.renumbered renumber) := by
  rw [Line.ofText?, Line.ofText?]
  split <;> rfl

/-- Numbered lines are found again, in their order and with other numbers, and no more content is
found than theirs. -/
structure Moves (renumber : Nat → Nat) (before after : List (Chars × Nat)) : Prop where
  strictMono : StrictMono renumber
  found : ∀ raw number, (raw, number) ∈ before → (raw, renumber number) ∈ after
  content : contentOf after = (contentOf before).map (Line.renumbered renumber)

section Padding

variable {renumber : Nat → Nat} {first first' number : Nat}

/-- New numbers after the line `first`, which becomes `first'`; the lines up to it move as far as it
does. -/
def movedFrom (first first' : Nat) (renumber : Nat → Nat) (number : Nat) : Nat :=
  if number ≤ first then number + (first' - first) else renumber number

theorem movedFrom_first (hfirst : first ≤ first') :
    movedFrom first first' renumber first = first' := by
  rw [movedFrom, if_pos (Nat.le_refl first), Nat.add_sub_cancel' hfirst]

theorem movedFrom_of_lt (hnumber : first < number) :
    movedFrom first first' renumber number = renumber number := if_neg (Nat.not_le.2 hnumber)

theorem strictMono_movedFrom (hmono : StrictMono renumber) (hfirst : first ≤ first')
    (hlater : ∀ number, first < number → first' < renumber number) :
    StrictMono (movedFrom first first' renumber) := by
  intro number other hlt
  rcases Nat.lt_or_ge first number with hnumber | hnumber
  · rw [movedFrom_of_lt hnumber, movedFrom_of_lt (hnumber.trans hlt)]
    exact hmono hlt
  · rw [movedFrom, if_pos hnumber]
    rcases Nat.lt_or_ge first other with hother | hother
    · have hbeyond := hlater other hother
      rw [movedFrom_of_lt hother]
      omega
    · rw [movedFrom, if_pos hother]
      omega

theorem Moves.cons {raw : Chars} {before after : List Chars}
    (hmoves : Moves renumber (before.zipIdx (first + 1)) (after.zipIdx (first' + 1)))
    (hfirst : first ≤ first') (hlater : ∀ number, first < number → first' < renumber number) :
    Moves (movedFrom first first' renumber) ((raw :: before).zipIdx first)
      ((raw :: after).zipIdx first') := by
  refine ⟨strictMono_movedFrom hmoves.strictMono hfirst hlater, ?_, ?_⟩
  · intro raw' number hmem
    rw [List.zipIdx_cons] at hmem ⊢
    rcases List.mem_cons.1 hmem with heq | hrest
    · obtain ⟨rfl, rfl⟩ := Prod.mk.inj heq
      rw [movedFrom_first hfirst]
      exact List.mem_cons_self
    · rw [movedFrom_of_lt (List.mem_zipIdx hrest).1]
      exact List.mem_cons_of_mem _ (hmoves.found raw' number hrest)
  · have hrest : (contentOf (before.zipIdx (first + 1))).map (Line.renumbered renumber) =
        (contentOf (before.zipIdx (first + 1))).map
          (Line.renumbered (movedFrom first first' renumber)) := by
      apply List.map_congr_left
      intro line hline
      rw [Line.renumbered, Line.renumbered, movedFrom_of_lt (le_number_of_mem_contentOf hline)]
    have hhead := ofText?_renumbered (movedFrom first first' renumber) first raw
    rw [movedFrom_first hfirst] at hhead
    have hcontent := hmoves.content.trans hrest
    rw [contentOf, contentOf] at hcontent
    rw [contentOf, contentOf, List.zipIdx_cons, List.zipIdx_cons, List.filterMap_cons,
      List.filterMap_cons, hhead, hcontent]
    cases Line.ofText? first raw <;> rfl

/-- Padding moves lines up. -/
theorem Padded.exists_moves {before after : List Chars} (hpadded : Padded before after)
    (hfirst : first ≤ first') :
    ∃ renumber, Moves renumber (before.zipIdx first) (after.zipIdx first') ∧
      ∀ number, first ≤ number → first' ≤ renumber number := by
  induction hpadded generalizing first first' with
  | nil =>
      refine ⟨fun number => number + (first' - first),
        ⟨fun _ _ hlt => Nat.add_lt_add_right hlt _, fun _ _ hfound => ?_, rfl⟩,
        fun number hnumber => ?_⟩
      · cases hfound
      · dsimp only
        omega
  | keep raw hrest ih =>
      obtain ⟨renumber, hmoves, hlater⟩ := ih (Nat.succ_le_succ hfirst)
      refine ⟨movedFrom first first' renumber, hmoves.cons hfirst hlater, fun number hnumber => ?_⟩
      rcases Nat.eq_or_lt_of_le hnumber with rfl | hlt
      · exact Nat.le_of_eq (movedFrom_first hfirst).symm
      · rw [movedFrom_of_lt hlt]
        exact Nat.le_of_succ_le (hlater number hlt)
  | insert hfiller hrest ih =>
      obtain ⟨renumber, hmoves, hlater⟩ := ih (Nat.le_succ_of_le hfirst)
      refine ⟨renumber, ⟨hmoves.strictMono, fun raw number hmem => ?_, ?_⟩,
        fun number hnumber => ?_⟩
      · exact List.mem_cons_of_mem _ (hmoves.found raw number hmem)
      · rw [List.zipIdx_cons, contentOf, List.filterMap_cons, ofText?_eq_none_iff.2 hfiller]
        exact hmoves.content
      · exact Nat.le_of_succ_le (hlater number hnumber)

end Padding

/-! ## Padding a text -/

/-- A line starts in a text where it goes on with the second part. -/
def StartsLine (front back : Chars) : Prop :=
  ∀ c ∈ front.getLast?, isLineEnd c = true ∧ (c = '\r' → back.head? ≠ some '\n')

instance (front back : Chars) : Decidable (StartsLine front back) :=
  Option.decidableForallMem front.getLast?

instance (text : Chars) : Decidable (OneLine text) := decidableForallMem text

section Texts

variable {front back filler : Chars}

theorem StartsLine.tail {c : Char} (hfront : StartsLine (c :: front) back) :
    StartsLine front back := by
  intro last hlast
  apply hfront last
  rw [List.getLast?_cons, show front.getLast? = some last from hlast]
  rfl

/-- A carriage return alone ends a line as other line ends do. -/
theorem linesFrom_cons_of_head? (line : Chars) {c : Char} {rest : Chars}
    (hc : c = '\r' → rest.head? ≠ some '\n') :
    linesFrom line (c :: rest) =
      if isLineEnd c then line.reverse :: linesFrom [] rest else linesFrom (c :: line) rest := by
  rw [linesFrom]
  rintro later rfl rfl
  exact hc rfl rfl

theorem linesFrom_append {line : Chars} (hfront : StartsLine front back)
    (hopen : front ≠ [] ∨ line = []) :
    linesFrom line (front ++ back) = linesFrom line front ++ linesFrom [] back := by
  have hhead {c : Char} {rest : Chars} (hfront : StartsLine (c :: rest) back)
      (hpair : ∀ later, c = '\r' → rest = '\n' :: later → False) :
      c = '\r' → (rest ++ back).head? ≠ some '\n' := by
    intro hc
    cases rest with
    | nil => exact (hfront c rfl).2 hc
    | cons second later =>
        intro hsecond
        injection hsecond with hsecond
        exact hpair later hc (hsecond ▸ rfl)
  fun_induction linesFrom line front with
  | case1 line hempty =>
      rw [List.isEmpty_iff.1 hempty]
      rfl
  | case2 line hempty =>
      rcases hopen with hne | hnil
      · exact absurd rfl hne
      · exact absurd (List.isEmpty_iff.2 hnil) hempty
  | case3 line rest ih =>
      rw [List.cons_append, List.cons_append, linesFrom, ih hfront.tail.tail (.inr rfl),
        List.cons_append]
  | case4 line c rest hpair hend ih =>
      rw [List.cons_append, linesFrom_cons_of_head? line (hhead hfront hpair), if_pos hend,
        ih hfront.tail (.inr rfl), List.cons_append]
  | case5 line c rest hpair hend ih =>
      have hne : rest ≠ [] := by
        rintro rfl
        exact hend (hfront c rfl).1
      rw [List.cons_append, linesFrom_cons_of_head? line (hhead hfront hpair), if_neg hend,
        ih hfront.tail (.inl hne)]

theorem lines_append (hfront : StartsLine front back) :
    lines (front ++ back) = lines front ++ lines back := linesFrom_append hfront (.inr rfl)

/-- Text is padded by a line that is put in where a line starts. -/
theorem padded_insert (hfront : StartsLine front back)
    (hplace : StartsLine front (filler ++ '\n' :: back)) (hline : OneLine filler)
    (hfiller : IsFiller filler) :
    Padded (lines (front ++ back)) (lines (front ++ (filler ++ '\n' :: back))) := by
  have hadded : lines (filler ++ '\n' :: back) = filler :: lines back :=
    linesFrom_lineFeed hline [] back
  rw [lines_append hfront, lines_append hplace, hadded]
  exact (Padded.refl _).append (.insert hfiller (.refl _))

end Texts

end Backtest.Script
