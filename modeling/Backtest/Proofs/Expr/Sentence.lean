import Backtest.Expr.Operator
import Backtest.Proofs.Expr.Outside
import Backtest.Proofs.Text.Blank

/-!
# Splitting a sentence

A sentence is a list of words with one space between any two of them.  A word is either an operator
or an atom, which holds no white space and no operator outside its quotes and brackets.

Splits know nothing of words: they compare characters, and the text of one operator can be part of
another one.  Yet on a sentence they fall exactly between words.  `splits_eq_cons` and
`splits_eq_concat` give the leftmost and the rightmost split at an operator, and
`splits_spell_eq_nil` says that a sentence without the operator has none.
-/

namespace Backtest.Expr

open Text

/-- The operators between the words of a sentence. -/
inductive Mark where
  | question
  | colon
  | junction (kind : Junction)
  | negation
  | comparison (kind : Comparison)
  | operation (kind : Operation)
  deriving DecidableEq

namespace Mark

def word : Mark → Chars
  | .question => ['?']
  | .colon => [':']
  | .junction .disjunction => ['o', 'r']
  | .junction .conjunction => ['a', 'n', 'd']
  | .negation => ['n', 'o', 't']
  | .comparison kind => kind.symbol
  | .operation kind => kind.symbol

/-- The text at which a sentence is split, which for a junction holds the spaces around it. -/
def symbol : Mark → Chars
  | .junction .disjunction => [' ', 'o', 'r', ' ']
  | .junction .conjunction => [' ', 'a', 'n', 'd', ' ']
  | mark => mark.word

def head (mark : Mark) : Char := mark.symbol.headD ' '

/-- How tightly an operator binds. -/
def level : Mark → Nat
  | .question | .colon => 0
  | .junction .disjunction => 1
  | .junction .conjunction => 2
  | .negation => 3
  | .comparison _ => 4
  | .operation .add => 5
  | .operation .subtract => 6
  | .operation .multiply => 7
  | .operation .divide => 8

def isComparison : Mark → Bool
  | .comparison _ => true
  | _ => false

def all : List Mark :=
  [.question, .colon, .junction .disjunction, .junction .conjunction, .negation] ++
    Comparison.all.map .comparison ++ Operation.all.map .operation

theorem mem_all (mark : Mark) : mark ∈ all := by
  cases mark with
  | junction kind => cases kind <;> decide
  | comparison kind => cases kind <;> decide
  | operation kind => cases kind <;> decide
  | _ => decide

/-- What can be checked operator by operator holds of all of them. -/
theorem forall_of_all {P : Mark → Prop} (hall : ∀ mark ∈ all, P mark) (mark : Mark) : P mark :=
  hall mark mark.mem_all

end Mark

/-- The characters of operators, and the comma. -/
def specials : Chars := ['?', ':', '>', '<', '=', '!', '+', '-', '*', '/', '|', '&', ',']

/-- A character that is neither white space nor part of an operator. -/
def IsPlain (c : Char) : Prop := isBlank c = false ∧ c ∉ specials

instance (c : Char) : Decidable (IsPlain c) := inferInstanceAs (Decidable (_ ∧ _))

inductive Word where
  | mark (mark : Mark)
  | atom (text : Chars)

namespace Word

def text : Word → Chars
  | .mark sign => sign.word
  | .atom shown => shown

/-- An atom is plain outside its quotes and brackets, and is no operator. -/
def Proper : Word → Prop
  | .mark _ => True
  | .atom shown => shown ≠ [] ∧ Outside IsPlain shown ∧ ∀ sign : Mark, shown ≠ sign.word

end Word

/-- The words of the rest of a sentence, each with a space before it. -/
def spellRest (words : List Word) : Chars := words.flatMap fun word => ' ' :: word.text

/-- The text of a sentence. -/
def spell : List Word → Chars
  | [] => []
  | word :: rest => word.text ++ spellRest rest

@[simp]
theorem spell_atom (shown : Chars) : spell [.atom shown] = shown := List.append_nil shown

theorem spellRest_eq_cons {words : List Word} (hne : words ≠ []) :
    spellRest words = ' ' :: spell words := by
  cases words with
  | nil => exact absurd rfl hne
  | cons word rest => rfl

theorem spell_append {first second : List Word} (hfirst : first ≠ []) :
    spell (first ++ second) = spell first ++ spellRest second := by
  cases first with
  | nil => exact absurd rfl hfirst
  | cons word rest =>
      rw [List.cons_append, spell, spell, spellRest, List.flatMap_append, List.append_assoc]
      rfl

theorem spell_append_cons {first second : List Word} (hfirst : first ≠ []) (hsecond : second ≠ [])
    (mark : Mark) :
    spell (first ++ .mark mark :: second) =
      spell first ++ ' ' :: (mark.word ++ ' ' :: spell second) := by
  rw [spell_append hfirst, ← spellRest_eq_cons hsecond, spellRest, List.flatMap_cons]
  rfl

/-! ## The characters of words -/

theorem Mark.of_mem_word {sign : Mark} {c : Char} (hc : c ∈ sign.word) :
    IsBare c ∧ isBlank c = false := by
  have hall : ∀ sign : Mark, ∀ c ∈ sign.word, IsBare c ∧ isBlank c = false :=
    Mark.forall_of_all (by decide)
  exact hall sign c hc

theorem Mark.word_ne_nil (sign : Mark) : sign.word ≠ [] := by
  have hall : ∀ sign : Mark, sign.word ≠ [] := Mark.forall_of_all (by decide)
  exact hall sign

theorem isBare_space : IsBare ' ' := by decide

/-- A text that is not blank outside its quotes and brackets has no blank at its ends. -/
theorem Outside.isTrimmed {p : Char → Prop} {text : Chars} (htext : Outside p text)
    (hp : ∀ c, p c → isBlank c = false) : IsTrimmed text := by
  constructor
  · intro c hc
    cases htext with
    | nil => exact nomatch hc
    | bare _ hp' _ => injection hc with hc; rw [← hc]; exact hp _ hp'
    | quoted hmark _ _ => injection hc with hc; rw [← hc]; exact not_isBlank_of_isQuote hmark
    | round _ _ => injection hc with hc; rw [← hc]; rfl
    | square _ _ => injection hc with hc; rw [← hc]; rfl
  · have hlast : ∀ (front rest : Chars) (last : Char), isBlank last = false →
        (∀ c, rest.getLast? = some c → isBlank c = false) →
        ∀ c, (front ++ last :: rest).getLast? = some c → isBlank c = false := by
      intro front rest last hblank hrest c hc
      rw [List.getLast?_append, List.getLast?_cons, Option.some_or] at hc
      injection hc with hc
      cases hend : rest.getLast? with
      | none => rw [hend] at hc; exact hc ▸ hblank
      | some final => rw [hend] at hc; exact hrest c (hend.trans (congrArg some hc))
    induction htext with
    | nil => exact nofun
    | bare _ hc _ ih => exact hlast [] _ _ (hp _ hc) (ih hp)
    | quoted hmark _ _ ih => exact hlast (_ :: _) _ _ (not_isBlank_of_isQuote hmark) (ih hp)
    | round _ _ _ ih => exact hlast (_ :: _) _ _ rfl (ih hp)
    | square _ _ _ ih => exact hlast (_ :: _) _ _ rfl (ih hp)

variable {p : Char → Prop}

theorem Word.Proper.outside {word : Word} (hword : word.Proper) (hplain : ∀ c, IsPlain c → p c)
    (hmarks : ∀ sign : Mark, ∀ c ∈ sign.word, p c) : Outside p word.text := by
  cases word with
  | mark sign => exact .of_forall fun c hc => ⟨(Mark.of_mem_word hc).1, hmarks sign c hc⟩
  | atom shown => exact hword.2.1.mono hplain

theorem Word.Proper.text_ne_nil {word : Word} (hword : word.Proper) : word.text ≠ [] := by
  cases word with
  | mark sign => exact sign.word_ne_nil
  | atom shown => exact hword.1

theorem outside_spellRest {words : List Word} (hwords : ∀ word ∈ words, word.Proper)
    (hspace : p ' ') (hplain : ∀ c, IsPlain c → p c)
    (hmarks : ∀ sign : Mark, ∀ c ∈ sign.word, p c) : Outside p (spellRest words) := by
  induction words with
  | nil => exact .nil
  | cons word rest ih =>
      have hrest := ih fun other hother => hwords other (List.mem_cons_of_mem _ hother)
      have hword := (hwords word List.mem_cons_self).outside hplain hmarks
      rw [spellRest, List.flatMap_cons]
      exact .bare isBare_space hspace (hword.append hrest)

/-- Outside its atoms a sentence is made of spaces and the characters of operators. -/
theorem outside_spell {words : List Word} (hwords : ∀ word ∈ words, word.Proper)
    (hspace : p ' ') (hplain : ∀ c, IsPlain c → p c)
    (hmarks : ∀ sign : Mark, ∀ c ∈ sign.word, p c) : Outside p (spell words) := by
  cases words with
  | nil => exact .nil
  | cons word rest =>
      have hothers := fun other hother => hwords other (List.mem_cons_of_mem word hother)
      have hrest := outside_spellRest hothers hspace hplain hmarks
      exact ((hwords word List.mem_cons_self).outside hplain hmarks).append hrest

/-- The quotes and brackets of a sentence are closed. -/
theorem closed_spell {words : List Word} (hwords : ∀ word ∈ words, word.Proper) :
    Outside (fun _ => True) (spell words) :=
  outside_spell hwords trivial (fun _ _ => trivial) fun _ _ _ => trivial

theorem Word.Proper.isTrimmed {word : Word} (hword : word.Proper) : IsTrimmed word.text :=
  (hword.outside (fun _ hc => hc.1) fun _ _ hc => (Mark.of_mem_word hc).2).isTrimmed fun _ hc => hc

theorem spell_ne_nil {words : List Word} (hwords : ∀ word ∈ words, word.Proper)
    (hne : words ≠ []) : spell words ≠ [] := by
  cases words with
  | nil => exact absurd rfl hne
  | cons word rest =>
      intro hnil
      exact (hwords word List.mem_cons_self).text_ne_nil (List.append_eq_nil_iff.1 hnil).1

/-- A sentence begins and ends with a word. -/
theorem isTrimmed_spell {words : List Word} (hwords : ∀ word ∈ words, word.Proper) :
    IsTrimmed (spell words) := by
  induction words with
  | nil => exact ⟨nofun, nofun⟩
  | cons word rest ih =>
      have hword := hwords word List.mem_cons_self
      have hrest := fun other hother => hwords other (List.mem_cons_of_mem word hother)
      constructor
      · intro c hc
        apply hword.isTrimmed.head
        rw [spell, List.head?_append, Option.or_eq_some_iff] at hc
        exact hc.resolve_right fun hnone => hword.text_ne_nil (List.head?_eq_none_iff.1 hnone.1)
      · intro c hc
        by_cases hnil : rest = []
        · rw [hnil, spell, spellRest, List.flatMap_nil, List.append_nil] at hc
          exact hword.isTrimmed.last c hc
        · apply (ih hrest).last
          rw [spell, spellRest_eq_cons hnil, List.getLast?_append, List.getLast?_cons] at hc
          rw [← hc, Option.some_or]
          cases hlast : (spell rest).getLast? with
          | none => exact absurd (List.getLast?_eq_none_iff.1 hlast) (spell_ne_nil hrest hnil)
          | some last => rfl

/-! ## Passing words -/

/-- What can stand after a word: nothing, or a space. -/
def AfterWord (rest : Chars) : Prop := ∀ c, rest.head? = some c → c = ' '

theorem afterWord_space (rest : Chars) : AfterWord (' ' :: rest) := by
  intro c hc
  injection hc with hc
  exact hc.symm

/-- What can stand after a word can still stand there with further words before it. -/
theorem AfterWord.spellRest_append {rest : Chars} (hrest : AfterWord rest) (words : List Word) :
    AfterWord (spellRest words ++ rest) := by
  cases words with
  | nil => exact hrest
  | cons word others => exact afterWord_space _

theorem afterWord_spellRest (words : List Word) : AfterWord (spellRest words) := by
  have hnone : AfterWord [] := nofun
  rw [← List.append_nil (spellRest words)]
  exact hnone.spellRest_append words

/-- Letters and a space at the front of a word and what is after it are all of that word. -/
theorem eq_of_isPrefixOf {core text rest : Chars} (hcore : ∀ c ∈ core, IsBare c ∧ c ≠ ' ')
    (htext : Outside (· ≠ ' ') text) (hrest : AfterWord rest)
    (hfront : (core ++ [' ']).isPrefixOf (text ++ rest) = true) : text = core := by
  induction core generalizing text with
  | nil =>
      cases text with
      | nil => rfl
      | cons c others =>
          rw [List.nil_append, List.cons_append, List.isPrefixOf_cons_cons, Bool.and_eq_true,
            beq_iff_eq] at hfront
          rw [← hfront.1] at htext
          exact absurd rfl (htext.of_cons isBare_space).1
  | cons first core ih =>
      obtain ⟨hbare, hspace⟩ := hcore first List.mem_cons_self
      cases text with
      | nil =>
          cases rest with
          | nil => exact nomatch hfront
          | cons c others =>
              rw [List.nil_append, List.cons_append, List.isPrefixOf_cons_cons, Bool.and_eq_true,
                beq_iff_eq] at hfront
              exact absurd (hfront.1.trans (hrest c rfl)) hspace
      | cons c others =>
          rw [List.cons_append, List.cons_append, List.isPrefixOf_cons_cons, Bool.and_eq_true,
            beq_iff_eq] at hfront
          obtain ⟨hfirst, hfront⟩ := hfront
          rw [← hfirst] at htext ⊢
          rw [ih (fun other hother => hcore other (List.mem_cons_of_mem _ hother))
            (htext.of_cons hbare).2 hfront]

/-! ## Splits between words -/

theorem Mark.symbol_eq_cons (sign : Mark) : sign.symbol = sign.head :: sign.symbol.tail := by
  have hall : ∀ sign : Mark, sign.symbol = sign.head :: sign.symbol.tail :=
    Mark.forall_of_all (by decide)
  exact hall sign

/-- No operator but the negation begins with a plain character. -/
theorem Mark.head_ne_of_isPlain {sign : Mark} (hsplits : sign ≠ .negation) {c : Char}
    (hc : IsPlain c) : sign.head ≠ c := by
  have hall : ∀ sign : Mark, sign ≠ .negation → isBlank sign.head = true ∨ sign.head ∈ specials :=
    Mark.forall_of_all (by decide)
  intro heq
  rw [← heq] at hc
  rcases hall sign hsplits with hblank | hspecial
  · rw [hc.1] at hblank
    exact nomatch hblank
  · exact hc.2 hspecial

/-- No word but that of a comparison holds the first character of another operator. -/
theorem Mark.head_ne_of_mem_word {sign other : Mark} (hsplits : sign ≠ .negation)
    (hne : other ≠ sign) (hkinds : ¬ (sign.isComparison = true ∧ other.isComparison = true))
    {c : Char} (hc : c ∈ other.word) : sign.head ≠ c := by
  have hall : ∀ sign : Mark, ∀ other ∈ Mark.all, sign ≠ .negation → other ≠ sign →
      ¬ (sign.isComparison = true ∧ other.isComparison = true) →
        ∀ c ∈ other.word, sign.head ≠ c := Mark.forall_of_all (by decide +kernel)
  exact hall sign other other.mem_all hsplits hne hkinds c hc

variable {sign : Mark} {before rest : Chars}

/-- An operator of one character does not stand at the front of a longer one. -/
theorem standsHere_guarded (c : Char) (before rest : Chars) :
    standsHere [c] before (c :: '=' :: rest) = false := by
  simp [standsHere, startsGuarded, isGuard]

/-- The symbols of two comparisons can overlap, but not where one of them is a word. -/
theorem splitsFrom_comparison {kind other : Comparison} (hne : other ≠ kind)
    (hrest : AfterWord rest) :
    splitsFrom kind.symbol Nesting.start before (other.symbol ++ rest) =
      splitsFrom kind.symbol Nesting.start (other.symbol.reverse ++ before) rest := by
  have hguarded (c : Char) (others : Chars) :
      ((Nesting.start.step c).2 && standsHere [c] before (c :: '=' :: others)) = false := by
    rw [standsHere_guarded, Bool.and_false]
  cases rest with
  | nil =>
      cases kind <;> cases other <;>
        first
          | exact absurd rfl hne
          | rfl
          | exact scans_splitsFrom _ _ _ _ _ (hguarded _ _)
  | cons c rest =>
      rw [hrest c rfl]
      cases kind <;> cases other <;>
        first
          | exact absurd rfl hne
          | rfl
          | exact scans_splitsFrom _ _ _ _ _ (hguarded _ _)

/-- A scan for an operator goes over every other word. -/
theorem splitsFrom_word (hsplits : sign ≠ .negation) {word : Word} (hword : word.Proper)
    (hne : word ≠ .mark sign) (hrest : AfterWord rest) :
    splitsFrom sign.symbol Nesting.start before (word.text ++ rest) =
      splitsFrom sign.symbol Nesting.start (word.text.reverse ++ before) rest := by
  have hoverlook {text : Chars} (htext : Outside (sign.head ≠ ·) text) :
      splitsFrom sign.symbol Nesting.start before (text ++ rest) =
        splitsFrom sign.symbol Nesting.start (text.reverse ++ before) rest := by
    rw [sign.symbol_eq_cons]
    exact (scans_splitsFrom _).outside htext (Int.le_refl 0)
      (fun _ c hc => standsHere_of_head_ne hc) before rest
  cases word with
  | atom shown => exact hoverlook (hword.2.1.mono fun c hc => Mark.head_ne_of_isPlain hsplits hc)
  | mark other =>
      have hother : other ≠ sign := fun heq => hne (by rw [heq])
      by_cases hkinds : sign.isComparison = true ∧ other.isComparison = true
      · obtain ⟨kind, rfl⟩ : ∃ kind, sign = .comparison kind := by
          cases sign <;> first | exact ⟨_, rfl⟩ | exact nomatch hkinds.1
        obtain ⟨kind', rfl⟩ : ∃ kind, other = .comparison kind := by
          cases other <;> first | exact ⟨_, rfl⟩ | exact nomatch hkinds.2
        exact splitsFrom_comparison (fun heq => hother (by rw [heq])) hrest
      · exact hoverlook (.of_forall fun c hc =>
          ⟨(Mark.of_mem_word hc).1, Mark.head_ne_of_mem_word hsplits hother hkinds hc⟩)

/-- A scan for an operator goes over the space before every other word. -/
theorem splitsFrom_space {word : Word} (hword : word.Proper) (hne : word ≠ .mark sign)
    (hrest : AfterWord rest) :
    splitsFrom sign.symbol Nesting.start before (' ' :: (word.text ++ rest)) =
      splitsFrom sign.symbol Nesting.start (' ' :: before) (word.text ++ rest) := by
  apply scans_splitsFrom
  by_cases hspace : sign.head = ' '
  · -- The operator is a junction, which begins with the space before its word.
    have hsymbol : ∀ sign : Mark, sign.head = ' ' → sign.symbol = ' ' :: (sign.word ++ [' ']) :=
      Mark.forall_of_all (by decide)
    have hcore : ∀ c ∈ sign.word, IsBare c ∧ c ≠ ' ' := by
      intro c hc
      obtain ⟨hbare, hblank⟩ := Mark.of_mem_word hc
      refine ⟨hbare, ?_⟩
      rintro rfl
      exact nomatch hblank
    have htext : Outside (· ≠ ' ') word.text := by
      apply (hword.outside (fun _ hc => hc.1) fun _ _ hc => (Mark.of_mem_word hc).2).mono
      rintro c hblank rfl
      exact nomatch hblank
    have hfront : (sign.word ++ [' ']).isPrefixOf (word.text ++ rest) = false := by
      rw [Bool.eq_false_iff]
      intro hfront
      have heq := eq_of_isPrefixOf hcore htext hrest hfront
      cases word with
      | mark other =>
          have hinjective : ∀ sign : Mark, ∀ other ∈ Mark.all, other.word = sign.word →
              other = sign := Mark.forall_of_all (by decide)
          exact hne (by rw [hinjective sign other other.mem_all heq])
      | atom shown => exact hword.2.2 sign heq
    rw [standsHere, hsymbol sign hspace, List.isPrefixOf_cons_cons, hfront, Bool.and_false,
      Bool.false_and, Bool.and_false]
  · rw [sign.symbol_eq_cons, standsHere_of_head_ne hspace, Bool.and_false]

/-- A scan for an operator goes over words among which it is not. -/
theorem splitsFrom_spellRest (hsplits : sign ≠ .negation) {words : List Word}
    (hwords : ∀ word ∈ words, word.Proper) (hmark : Word.mark sign ∉ words)
    (hrest : AfterWord rest) :
    splitsFrom sign.symbol Nesting.start before (spellRest words ++ rest) =
      splitsFrom sign.symbol Nesting.start ((spellRest words).reverse ++ before) rest := by
  induction words generalizing before with
  | nil => rfl
  | cons word others ih =>
      obtain ⟨hword, hothers⟩ := List.forall_mem_cons.1 hwords
      obtain ⟨hne, hmark⟩ := List.ne_and_not_mem_of_not_mem_cons hmark
      have hafter := hrest.spellRest_append others
      have hspell : spellRest (word :: others) = ' ' :: (word.text ++ spellRest others) := rfl
      rw [hspell, List.cons_append, List.append_assoc, splitsFrom_space hword hne.symm hafter,
        splitsFrom_word hsplits hword hne.symm hafter, ih hothers hmark]
      simp

theorem splitsFrom_cons_of_hit {op before rest left right : Chars} {c : Char}
    (hhit : ((Nesting.start.step c).2 && standsHere op before (c :: rest)) = true)
    (hleft : trim before.reverse = left) (hleft' : left ≠ [])
    (hright : trim ((c :: rest).drop op.length) = right) (hright' : right ≠ []) :
    splitsFrom op Nesting.start before (c :: rest) =
      (left, right) :: splitsFrom op (Nesting.start.step c).1 (c :: before) rest := by
  have hempty : ¬ (left.isEmpty || right.isEmpty) = true := by
    rw [List.isEmpty_eq_false_iff.2 hleft', List.isEmpty_eq_false_iff.2 hright']
    exact Bool.false_ne_true
  rw [splitsFrom]
  dsimp only
  rw [if_pos hhit, hleft, hright, if_neg hempty]

/-- A scan that stands before an operator between two trimmed texts splits them. -/
theorem splitsFrom_hit {left right : Chars} (hsplits : sign ≠ .negation) (hleft : IsTrimmed left)
    (hleft' : left ≠ []) (hright : IsTrimmed right) (hright' : right ≠ []) :
    splitsFrom sign.symbol Nesting.start left.reverse (' ' :: (sign.word ++ ' ' :: right)) =
      (left, right) ::
        splitsFrom sign.symbol Nesting.start (sign.word.reverse ++ ' ' :: left.reverse)
          (' ' :: right) := by
  have hspace : ∀ c ∈ [' '], isBlank c = true := by decide
  have hnear : trim left.reverse.reverse = left := by
    rw [List.reverse_reverse, trim_of_isTrimmed hleft hleft']
  have hpadded : trim (' ' :: left.reverse).reverse = left := by
    have htrim : trim ([] ++ (left ++ [' '])) = left := trim_padded nofun hspace hleft hleft'
    rw [List.reverse_cons, List.reverse_reverse]
    exact htrim
  have hspaced : trim (' ' :: right) = right := by
    have htrim : trim ([' '] ++ (right ++ [])) = right := trim_padded hspace nofun hright hright'
    rw [List.append_nil] at htrim
    exact htrim
  by_cases hjunction : sign.head = ' '
  · -- A junction is found at the space before its word.
    cases sign with
    | junction kind =>
        cases kind <;>
          exact splitsFrom_cons_of_hit rfl hnear hleft' (trim_of_isTrimmed hright hright') hright'
    | comparison kind => cases kind <;> exact nomatch hjunction
    | operation kind => cases kind <;> exact nomatch hjunction
    | _ => exact nomatch hjunction
  · -- Every other operator is found at its word.
    have hpass : splitsFrom sign.symbol Nesting.start left.reverse
        (' ' :: (sign.word ++ ' ' :: right)) =
          splitsFrom sign.symbol Nesting.start (' ' :: left.reverse) (sign.word ++ ' ' :: right) := by
      apply scans_splitsFrom
      rw [sign.symbol_eq_cons, standsHere_of_head_ne hjunction, Bool.and_false]
    rw [hpass]
    cases sign with
    | negation => exact absurd rfl hsplits
    | junction kind => cases kind <;> exact absurd rfl hjunction
    | comparison kind =>
        cases kind <;> exact splitsFrom_cons_of_hit rfl hpadded hleft' hspaced hright'
    | operation kind =>
        cases kind <;> exact splitsFrom_cons_of_hit rfl hpadded hleft' hspaced hright'
    | question => exact splitsFrom_cons_of_hit rfl hpadded hleft' hspaced hright'
    | colon => exact splitsFrom_cons_of_hit rfl hpadded hleft' hspaced hright'

/-! ## Splits of a sentence -/

section Sentences

variable {words left right : List Word}

theorem splitsFrom_spell (hsplits : sign ≠ .negation) (hwords : ∀ word ∈ words, word.Proper)
    (hsign : Word.mark sign ∉ words) (hrest : AfterWord rest) :
    splitsFrom sign.symbol Nesting.start [] (spell words ++ rest) =
      splitsFrom sign.symbol Nesting.start (spell words).reverse rest := by
  cases words with
  | nil => rfl
  | cons word others =>
      obtain ⟨hword, hothers⟩ := List.forall_mem_cons.1 hwords
      obtain ⟨hne, hsign⟩ := List.ne_and_not_mem_of_not_mem_cons hsign
      rw [spell, List.append_assoc, splitsFrom_word hsplits hword hne.symm
        (hrest.spellRest_append others), splitsFrom_spellRest hsplits hothers hsign hrest]
      simp

/-- A sentence has no split at an operator that is not among its words. -/
theorem splits_spell_eq_nil (hsplits : sign ≠ .negation) (hwords : ∀ word ∈ words, word.Proper)
    (hsign : Word.mark sign ∉ words) : splits sign.symbol (spell words) = [] := by
  have hscan : splitsFrom sign.symbol Nesting.start [] (spell words ++ []) = [] :=
    splitsFrom_spell hsplits hwords hsign nofun
  rw [List.append_nil] at hscan
  exact hscan

/-- The leftmost split at an operator is at its first occurrence among the words. -/
theorem splits_eq_cons (hsplits : sign ≠ .negation) (hleft : ∀ word ∈ left, word.Proper)
    (hleft' : left ≠ []) (hright : ∀ word ∈ right, word.Proper) (hright' : right ≠ [])
    (hsign : Word.mark sign ∉ left) :
    ∃ later, splits sign.symbol (spell (left ++ .mark sign :: right)) =
      (spell left, spell right) :: later := by
  rw [splits, spell_append_cons hleft' hright',
    splitsFrom_spell hsplits hleft hsign (afterWord_space _), splitsFrom_hit hsplits (isTrimmed_spell hleft) (spell_ne_nil hleft hleft')
      (isTrimmed_spell hright) (spell_ne_nil hright hright')]
  exact ⟨_, rfl⟩

/-- What a scan finds in a text comes before what it finds behind it. -/
theorem exists_splitsFrom_append (op : Chars) (state : Nesting) (before text rest : Chars) :
    ∃ found, splitsFrom op state before (text ++ rest) =
      found ++ splitsFrom op (text.foldl (fun state c => (state.step c).1) state)
        (text.reverse ++ before) rest := by
  induction text generalizing state before with
  | nil => exact ⟨[], rfl⟩
  | cons c others ih =>
      obtain ⟨found, hfound⟩ := ih (state.step c).1 (c :: before)
      have hreverse : (c :: others).reverse ++ before = others.reverse ++ c :: before := by simp
      rw [List.cons_append, splitsFrom, List.foldl_cons, hreverse]
      dsimp only
      rw [hfound]
      split
      · split
        · exact ⟨found, rfl⟩
        · exact ⟨_ :: found, rfl⟩
      · exact ⟨found, rfl⟩

/-- A scan leaves a text in the nesting in which it came to it. -/
theorem Outside.foldl_step {text : Chars} (htext : Outside p text) :
    text.foldl (fun state c => (state.step c).1) Nesting.start = Nesting.start := by
  have hscans : Scans
      (fun state (_ : Chars) text => text.foldl (fun state c => (state.step c).1) state)
      fun _ _ => false := by
    intro state before c rest _
    rfl
  have hscan := hscans.outside htext (Int.le_refl 0) (fun _ _ _ _ _ => rfl) [] []
  rw [List.append_nil] at hscan
  exact hscan

/-- The rightmost split at an operator is at its last occurrence among the words. -/
theorem splits_eq_concat (hsplits : sign ≠ .negation) (hleft : ∀ word ∈ left, word.Proper)
    (hleft' : left ≠ []) (hright : ∀ word ∈ right, word.Proper) (hright' : right ≠ [])
    (hsign : Word.mark sign ∉ right) :
    ∃ earlier, splits sign.symbol (spell (left ++ .mark sign :: right)) =
      earlier ++ [(spell left, spell right)] := by
  have hlast : splitsFrom sign.symbol Nesting.start
      (sign.word.reverse ++ ' ' :: (spell left).reverse) (' ' :: spell right) = [] := by
    have hscan : splitsFrom sign.symbol Nesting.start
        (sign.word.reverse ++ ' ' :: (spell left).reverse) (spellRest right ++ []) = [] :=
      splitsFrom_spellRest hsplits hright hsign nofun
    rw [List.append_nil, spellRest_eq_cons hright'] at hscan
    exact hscan
  obtain ⟨earlier, hearlier⟩ := exists_splitsFrom_append sign.symbol Nesting.start []
    (spell left) (' ' :: (sign.word ++ ' ' :: spell right))
  refine ⟨earlier, ?_⟩
  rw [splits, spell_append_cons hleft' hright', hearlier, (closed_spell hleft).foldl_step, List.append_nil,
    splitsFrom_hit hsplits (isTrimmed_spell hleft) (spell_ne_nil hleft hleft')
      (isTrimmed_spell hright) (spell_ne_nil hright hright'), hlast]

end Sentences

end Backtest.Expr
