import Backtest.Proofs.Expr.Printing
import Backtest.Proofs.Script.Printing

/-!
# Phrases

A phrase is a text that can be part of a printed statement: an expression, a condition or an
argument.  Its quotes and brackets are closed and neither a comment nor a signal call begins in it,
so that none begins in a line that is put together from phrases.
-/

namespace Backtest.Script

open Text Backtest.Expr

/-! ## Phrases -/

/-- A text within a statement: it stands on one line, its quotes and brackets are closed, and
neither a comment nor a signal call begins in it. -/
structure IsPhrase (text : Chars) : Prop extends IsLineText text where
  closed : Outside (fun _ => True) text
  noSignal : fromSignal? text = none

/-- The right side of an assignment is no declaration. -/
structure IsExpression (text : Chars) : Prop extends IsPhrase text where
  noInput : afterWord? "input" text = none
  noStrategy : afterWord? "strategy" text = none

/-- A condition has no decoration at its end. -/
structure IsCondition (text : Chars) : Prop extends IsPhrase text where
  bare : ∀ ending ∈ ["then", ":", "\x7b"], ¬ ending.toList <:+ text

/-- An argument has no comma outside quotes and brackets. -/
structure IsOperand (text : Chars) : Prop extends IsPhrase text where
  noComma : Outside (· ≠ ',') text

structure IsName (name : String) : Prop where
  nonempty : name.toList ≠ []
  word : ∀ c ∈ name.toList, isWord c = true

/-- A label can stand in quotes on a line. -/
def IsLabel (label : String) : Prop :=
  ∀ c ∈ label.toList, isQuote c = false ∧ isLineEnd c = false ∧ c ≠ '\t'

/-! ## Words -/

variable {text front back rest : Chars} {c mark : Char}

/-- Behind a part of a longer word the word goes on. -/
theorem isWord_of_after?_append (hfront : ∀ c ∈ front, isWord c = true) {word : Chars}
    (hmark : mark ∉ word) (hne : front ≠ word)
    (hrest : after? word (front ++ mark :: back) = some rest) :
    ∃ c others, rest = c :: others ∧ isWord c = true := by
  rw [after?_append_cons hmark, Option.map_eq_some_iff] at hrest
  obtain ⟨others, hothers, rfl⟩ := hrest
  have hfound := after?_eq_some_iff.1 hothers
  cases others with
  | nil => exact absurd (hfound.trans (List.append_nil word)) hne
  | cons c others => exact ⟨c, _, rfl, hfront c (by rw [hfound]; simp)⟩

theorem afterWord?_append (hfront : ∀ c ∈ front, isWord c = true) (hmark : isWord mark = false)
    {word : String} (hword : mark ∉ word.toList) :
    afterWord? word (front ++ mark :: back) =
      if front = word.toList then some (mark :: back) else none := by
  by_cases hsame : front = word.toList
  · rw [if_pos hsame, hsame, afterWord?, after?_eq_some_iff.2 rfl]
    dsimp only
    rw [endsWord, hmark]
    rfl
  · rw [if_neg hsame, afterWord?]
    split
    · next rest hrest =>
        obtain ⟨c, others, rfl, hc⟩ := isWord_of_after?_append hfront hword hsame hrest
        rw [endsWord, hc]
        rfl
    · rfl

theorem afterSpaced?_append (hfront : ∀ c ∈ front, isWord c = true) {word : String}
    (hword : ' ' ∉ word.toList) :
    afterSpaced? word (front ++ ' ' :: back) =
      if front = word.toList then some (trimLeft back) else none := by
  by_cases hsame : front = word.toList
  · rw [if_pos hsame, hsame, afterSpaced?, after?_eq_some_iff.2 rfl]
    rfl
  · rw [if_neg hsame, afterSpaced?]
    split
    · next c rest hrest =>
        obtain ⟨d, others, heq, hd⟩ := isWord_of_after?_append hfront hword hsame hrest
        injection heq with hc
        rw [if_neg]
        intro hblank
        rw [← hc, not_isWord_of_isBlank hblank] at hd
        exact nomatch hd
    · rfl

/-! ## Signal calls -/

theorem afterOpening?_eq_some_iff {word : String} : afterOpening? word text = some rest ↔
    ∃ found, text = word.toList ++ found ∧ trimLeft found = '(' :: rest := by
  rw [afterOpening?]
  constructor
  · intro hrest
    split at hrest
    · next other hother =>
        injection hrest with hrest
        obtain ⟨found, hfound, htrim⟩ := Option.map_eq_some_iff.1 hother
        exact ⟨found, after?_eq_some_iff.1 hfound, hrest ▸ htrim⟩
    · exact nomatch hrest
  · rintro ⟨found, hfound, htrim⟩
    rw [after?_eq_some_iff.2 hfound, Option.map_some, htrim]
    rfl

theorem opensSignal_iff : opensSignal text = true ↔ ∃ call : SignalCall, ∃ found rest,
    text = call.name.toList ++ found ∧ trimLeft found = '(' :: rest := by
  have hall (call : SignalCall) : call ∈ SignalCall.all := by cases call <;> decide
  rw [opensSignal, List.any_eq_true]
  constructor
  · rintro ⟨call, _, hopens⟩
    obtain ⟨rest, hrest⟩ := Option.isSome_iff_exists.1 hopens
    obtain ⟨found, hfound⟩ := afterOpening?_eq_some_iff.1 hrest
    exact ⟨call, found, rest, hfound⟩
  · rintro ⟨call, found, rest, hfound⟩
    exact ⟨call, hall call, by rw [afterOpening?_eq_some_iff.2 ⟨found, hfound⟩]; rfl⟩

theorem SignalCall.exists_name (call : SignalCall) :
    ∃ rest, call.name.toList = 's' :: 't' :: rest := by
  cases call <;> exact ⟨_, rfl⟩

theorem SignalCall.isCallChar_of_mem (call : SignalCall) :
    ∀ c ∈ call.name.toList, isCallChar c = true := by
  cases call <;> decide +kernel

theorem SignalCall.dot_mem_name (call : SignalCall) : '.' ∈ call.name.toList := by
  cases call <;> decide

theorem opensSignal_cons_of_ne (hc : c ≠ 's') (rest : Chars) : opensSignal (c :: rest) = false := by
  rw [Bool.eq_false_iff]
  intro hopens
  obtain ⟨call, found, _, htext, _⟩ := opensSignal_iff.1 hopens
  obtain ⟨others, hname⟩ := call.exists_name
  rw [hname] at htext
  injection htext with hfirst
  exact hc hfirst

theorem fromSignal?_cons (hopens : opensSignal (c :: rest) = false) :
    fromSignal? (c :: rest) = fromSignal? rest := by
  rw [fromSignal?, hopens]
  rfl

theorem fromSignal?_cons_of_ne (hc : c ≠ 's') (rest : Chars) :
    fromSignal? (c :: rest) = fromSignal? rest := fromSignal?_cons (opensSignal_cons_of_ne hc rest)

/-- No signal call begins in a text without a point. -/
theorem fromSignal?_of_noDot (htext : '.' ∉ text) : fromSignal? text = none := by
  induction text with
  | nil => rfl
  | cons c rest ih =>
      have hopens : opensSignal (c :: rest) = false := by
        rw [Bool.eq_false_iff]
        intro hopens
        obtain ⟨call, found, _, heq, _⟩ := opensSignal_iff.1 hopens
        exact htext (heq ▸ List.mem_append_left found call.dot_mem_name)
      rw [fromSignal?_cons hopens, ih fun hmem => htext (List.mem_cons_of_mem c hmem)]

/-- A signal call does not reach over a mark that is no part of one. -/
theorem opensSignal_append_cons (hmark : isCallChar mark = false) (hblank : isBlank mark = false)
    (hopen : mark ≠ '(') (hfront : opensSignal front = false) :
    opensSignal (front ++ mark :: back) = false := by
  rw [Bool.eq_false_iff] at hfront ⊢
  intro hopens
  obtain ⟨call, found, rest, htext, htrim⟩ := opensSignal_iff.1 hopens
  rcases append_eq_append_cons_iff.1 htext.symm with ⟨others, hname, _⟩ | ⟨others, hothers, rfl⟩
  · have hmem : mark ∈ call.name.toList := by rw [hname]; simp
    rw [call.isCallChar_of_mem mark hmem] at hmark
    exact nomatch hmark
  · rw [trimLeft_append_cons hblank] at htrim
    cases hleft : trimLeft others with
    | nil =>
        rw [hleft] at htrim
        injection htrim with hfirst
        exact hopen hfirst
    | cons d inner =>
        rw [hleft] at htrim
        injection htrim with hfirst
        exact hfront (opensSignal_iff.2 ⟨call, others, inner, hothers, by rw [hleft, hfirst]⟩)

theorem fromSignal?_append_cons (hmark : isCallChar mark = false) (hblank : isBlank mark = false)
    (hopen : mark ≠ '(') (hfront : fromSignal? front = none) :
    fromSignal? (front ++ mark :: back) = fromSignal? back := by
  induction front with
  | nil =>
      apply fromSignal?_cons_of_ne
      rintro rfl
      exact absurd hmark (by decide)
  | cons c rest ih =>
      rw [fromSignal?] at hfront
      split at hfront
      · exact nomatch hfront
      · next hopens =>
          have hlater : opensSignal (c :: (rest ++ mark :: back)) = false :=
            opensSignal_append_cons hmark hblank hopen (Bool.eq_false_iff.2 hopens)
          rw [List.cons_append, fromSignal?_cons hlater, ih hfront]

/-! ## Rows without comments -/

/-- The quote that a text is in behind a character. -/
def quoteAfter (quote : Option Char) (c : Char) : Option Char :=
  match quote with
  | some mark => if c = mark then none else some mark
  | none => if isQuote c then some c else none

/-- Behind a text without a comment, comments are looked for as its quotes are then. -/
theorem beforeComment_append {quote : Option Char} (hplain : beforeComment quote front = front)
    (hback : back.head? ≠ some '/') :
    beforeComment quote (front ++ back) =
      front ++ beforeComment (front.foldl quoteAfter quote) back := by
  induction front generalizing quote with
  | nil => rfl
  | cons c rest ih =>
      rw [List.cons_append, List.foldl_cons, List.cons_append]
      cases quote with
      | some mark =>
          rw [beforeComment] at hplain ⊢
          injection hplain with _ hplain
          rw [ih hplain]
          rfl
      | none =>
          rw [beforeComment] at hplain ⊢
          rw [quoteAfter]
          by_cases hquote : isQuote c = true
          · rw [if_pos hquote] at hplain ⊢
            injection hplain with _ hplain
            rw [ih hplain, if_pos hquote]
          · rw [if_neg hquote] at hplain ⊢
            split at hplain
            · cases hplain
            · next hslash =>
                injection hplain with _ hplain
                have hlater : ¬ (c == '/' && (rest ++ back).head? == some '/') = true := by
                  cases rest with
                  | nil => simpa using fun _ => hback
                  | cons d others => exact hslash
                rw [if_neg hlater, ih hplain, if_neg hquote]

theorem foldl_quoteAfter_content {content : Chars} (hcontent : mark ∉ content) :
    content.foldl quoteAfter (some mark) = some mark := by
  induction content with
  | nil => rfl
  | cons c rest ih =>
      obtain ⟨hc, hrest⟩ := List.ne_and_not_mem_of_not_mem_cons hcontent
      rw [List.foldl_cons, quoteAfter, if_neg hc.symm, ih hrest]

/-- The quotes of a text are closed behind it. -/
theorem foldl_quoteAfter_outside {p : Char → Prop} (htext : Outside p text) :
    text.foldl quoteAfter none = none := by
  induction htext with
  | nil => rfl
  | bare hbare _ _ ih =>
      rw [List.foldl_cons, quoteAfter, hbare.1, if_neg Bool.false_ne_true, ih]
  | quoted hmark hcontent _ ih =>
      rw [List.foldl_cons, quoteAfter, if_pos hmark, List.foldl_append,
        foldl_quoteAfter_content hcontent, List.foldl_cons, quoteAfter, if_pos rfl, ih]
  | round _ _ ihinner ih =>
      rw [List.foldl_cons, List.foldl_append, List.foldl_cons]
      change List.foldl quoteAfter (quoteAfter (List.foldl quoteAfter none _) ')') _ = none
      rw [ihinner]
      exact ih
  | square _ _ ihinner ih =>
      rw [List.foldl_cons, List.foldl_append, List.foldl_cons]
      change List.foldl quoteAfter (quoteAfter (List.foldl quoteAfter none _) ']') _ = none
      rw [ihinner]
      exact ih

/-- A text with closed quotes and no comment in it. -/
structure IsUncommented (text : Chars) : Prop where
  closed : text.foldl quoteAfter none = none
  whole : beforeComment none text = text

namespace IsUncommented

theorem append (hfront : IsUncommented front) (hback : IsUncommented back)
    (hhead : back.head? ≠ some '/') : IsUncommented (front ++ back) := by
  constructor
  · rw [List.foldl_append, hfront.closed, hback.closed]
  · rw [beforeComment_append hfront.whole hhead, hfront.closed, hback.whole]

theorem nil : IsUncommented [] := ⟨rfl, by rw [beforeComment]⟩

theorem plain_append (hfront : ∀ c ∈ front, isQuote c = false ∧ c ≠ '/')
    (hback : IsUncommented back) : IsUncommented (front ++ back) := by
  induction front with
  | nil => exact hback
  | cons c rest ih =>
      obtain ⟨⟨hquote, hslash⟩, hrest⟩ := List.forall_mem_cons.1 hfront
      have hlater := ih hrest
      constructor
      · rw [List.cons_append, List.foldl_cons, quoteAfter, hquote, if_neg Bool.false_ne_true,
          hlater.closed]
      · rw [List.cons_append, beforeComment_plain isMark_none hquote hslash, hlater.whole]

theorem of_forall (htext : ∀ c ∈ text, isQuote c = false ∧ c ≠ '/') : IsUncommented text := by
  rw [← List.append_nil text]
  exact nil.plain_append htext

theorem commas {texts : List Chars} (htexts : ∀ text ∈ texts, IsUncommented text) :
    IsUncommented (commas texts) := by
  induction texts with
  | nil => exact nil
  | cons text rest ih =>
      obtain ⟨htext, hrest⟩ := List.forall_mem_cons.1 htexts
      cases rest with
      | nil => exact htext
      | cons second others =>
          have hseparated : IsUncommented ([',', ' '] ++ Expr.commas (second :: others)) :=
            (ih hrest).plain_append (by decide)
          exact htext.append hseparated (by simp)

end IsUncommented

theorem IsPhrase.isUncommented (htext : IsPhrase text) : IsUncommented text :=
  ⟨foldl_quoteAfter_outside htext.closed, htext.uncommented⟩

/-- What holds for the separators and for the characters of some texts holds for all characters of
the texts with separators. -/
theorem forall_mem_commas {p : Char → Prop} {texts : List Chars} (hcomma : p ',') (hspace : p ' ')
    (htexts : ∀ text ∈ texts, ∀ c ∈ text, p c) : ∀ c ∈ commas texts, p c := by
  induction texts with
  | nil => exact nofun
  | cons text rest ih =>
      obtain ⟨htext, hrest⟩ := List.forall_mem_cons.1 htexts
      cases rest with
      | nil => exact htext
      | cons second others =>
          rw [commas_cons, List.forall_mem_append, List.forall_mem_cons, List.forall_mem_cons]
          exact ⟨htext, hcomma, hspace, ih hrest⟩

/-! ## Rows as lines -/

/-- A character that neither ends a line nor widens it, and neither quotes nor comments. -/
def IsQuiet (c : Char) : Prop :=
  (isQuote c = false ∧ c ≠ '/') ∧ isLineEnd c = false ∧ c ≠ '\t'

instance (c : Char) : Decidable (IsQuiet c) := inferInstanceAs (Decidable (_ ∧ _))

theorem isBlank_of_isLineEnd (hc : isLineEnd c = true) : isBlank c = true := by
  simp only [isLineEnd, isBlank, Bool.or_eq_true, Bool.and_eq_true, decide_eq_true_eq,
    beq_iff_eq] at hc ⊢
  omega

theorem isQuiet_of_isCallChar (hc : isCallChar c = true) : IsQuiet c := by
  have hblank := not_isBlank_of_isCallChar hc
  have hslash : c ∉ ['/'] := not_mem_of_all (by decide +kernel) hc
  refine ⟨⟨(IsBare.of_isCallChar hc).1, fun heq => hslash (heq ▸ List.mem_singleton_self c)⟩,
    Bool.eq_false_iff.2 fun hend => ?_, ?_⟩
  · rw [isBlank_of_isLineEnd hend] at hblank
    exact nomatch hblank
  · rintro rfl
    exact absurd hblank (by decide)

/-- A text that can begin a line, whatever follows it. -/
structure IsOpening (front : Chars) : Prop where
  nonempty : front ≠ []
  head : ∀ c, front.head? = some c → isBlank c = false
  quiet : ∀ c ∈ front, IsQuiet c

theorem isOpening_cons (hc : isBlank c = false) (hfront : ∀ d ∈ c :: rest, IsQuiet d) :
    IsOpening (c :: rest) where
  nonempty := List.cons_ne_nil c rest
  head d hd := by
    injection hd with hd
    exact hd ▸ hc
  quiet := hfront

theorem IsOpening.append (hfront : IsOpening front) (hback : ∀ c ∈ back, IsQuiet c) :
    IsOpening (front ++ back) where
  nonempty := List.append_ne_nil_of_left_ne_nil hfront.nonempty back
  head c hc := by
    rw [List.head?_append_of_ne_nil _ hfront.nonempty] at hc
    exact hfront.head c hc
  quiet := List.forall_mem_append.2 ⟨hfront.quiet, hback⟩

theorem IsOpening.isLineText_append (hfront : IsOpening front) (hne : back ≠ [])
    (hlast : ∀ c, back.getLast? = some c → isBlank c = false)
    (hinline : ∀ c ∈ back, isLineEnd c = false ∧ c ≠ '\t') (hback : IsUncommented back) :
    IsLineText (front ++ back) where
  nonempty := List.append_ne_nil_of_left_ne_nil hfront.nonempty back
  trimmed := by
    constructor
    · intro c hc
      rw [List.head?_append_of_ne_nil _ hfront.nonempty] at hc
      exact hfront.head c hc
    · intro c hc
      rw [List.getLast?_append_of_ne_nil _ hne] at hc
      exact hlast c hc
  inline := List.forall_mem_append.2 ⟨fun c hc => (hfront.quiet c hc).2, hinline⟩
  uncommented := (hback.plain_append fun c hc => (hfront.quiet c hc).1).whole

theorem IsOpening.isLineText_phrase (hfront : IsOpening front) (htext : IsPhrase text) :
    IsLineText (front ++ text) :=
  hfront.isLineText_append htext.nonempty htext.trimmed.last htext.inline htext.isUncommented

/-- An opening with arguments behind it. -/
theorem IsOpening.isLineText_arguments (hfront : IsOpening front) {texts : List Chars}
    (hinline : ∀ text ∈ texts, ∀ c ∈ text, isLineEnd c = false ∧ c ≠ '\t')
    (htexts : ∀ text ∈ texts, IsUncommented text) :
    IsLineText (front ++ (commas texts ++ [')'])) := by
  apply hfront.isLineText_append
  · simp
  · intro c hc
    rw [List.getLast?_concat] at hc
    injection hc with hc
    rw [← hc]
    decide
  · rw [List.forall_mem_append]
    exact ⟨forall_mem_commas (by decide) (by decide) hinline, by decide⟩
  · exact (IsUncommented.commas htexts).append (.of_forall (by decide)) (by decide)

theorem IsName.head {name : String} (hname : IsName name) :
    ∃ c rest, name.toList = c :: rest ∧ isWord c = true := by
  obtain ⟨c, rest, hchars⟩ := List.exists_cons_of_ne_nil hname.nonempty
  exact ⟨c, rest, hchars, hname.word c (hchars ▸ List.mem_cons_self)⟩

theorem IsName.isOpening {name : String} (hname : IsName name) : IsOpening name.toList where
  nonempty := hname.nonempty
  head c hc :=
    not_isBlank_of_isCallChar (isCallChar_of_isWord (hname.word c (List.mem_of_head? hc)))
  quiet c hc := isQuiet_of_isCallChar (isCallChar_of_isWord (hname.word c hc))

theorem IsName.notMem {name : String} (hname : IsName name) (hc : isWord c = false) :
    c ∉ name.toList := by
  intro hmem
  rw [hname.word c hmem] at hc
  exact nomatch hc

end Backtest.Script
