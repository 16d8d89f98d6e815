import Backtest.Proofs.Expr.Part
import Backtest.Proofs.Expr.Printing
import Mathlib.Data.List.Chain
import Mathlib.Data.List.DropRight
import Mathlib.Data.List.Forall2

/-!
# Texts with open places

A template is a text with open places, and filling it puts a token into each of them.  Where every
open place stands by itself (`Template.Stands`), a token in it is a word of its own: it is no part of
a name, of a numeral or of an operator.

So an operator stands in a filled template only where the template has it (`IsSign.standsHere_fill`),
a scan goes over an open place whichever token is in it (`Scans.fill_none`), and a token opens and
closes no bracket (`closesFrom_token`).
-/

namespace Backtest.Expr

open Text

/-- A text in which some places are open. -/
abbrev Template := List (Option Char)

/-- A character of a name or of an unsigned numeral. -/
def isTokenChar (c : Char) : Bool := isCallChar c || isDigit c

/-- The longest runs of characters of names and numerals in a text. -/
def runs (text : Chars) : List Chars := text.splitOnP fun c => !isTokenChar c

/-- A word of names and numerals that is none of an operator. -/
structure IsToken (token : Chars) : Prop where
  nonempty : token ≠ []
  chars : ∀ c ∈ token, isTokenChar c = true
  unreserved : token ∉ operatorWords

theorem NumeralToken.isToken (token : NumeralToken) : IsToken token.text where
  nonempty := token.nonempty
  chars := by
    intro c hc
    rw [isTokenChar, Bool.or_eq_true]
    rcases token.isNumeralChar c hc with hdigit | hmark
    · exact .inr hdigit
    · have hall : ∀ c ∈ Decimal.numeralMarks, c ≠ '+' → c ≠ '-' → isCallChar c = true := by
        decide
      refine .inl (hall c hmark ?_ ?_)
      · rintro rfl
        exact token.unsigned.1 hc
      · rintro rfl
        exact token.unsigned.2 hc
  unreserved := token.unreserved

theorem NameToken.isToken (token : NameToken) : IsToken token.text where
  nonempty := token.nonempty
  chars c hc := by
    rw [isTokenChar, isCallChar_of_isWord (token.isWord c hc), Bool.true_or]
  unreserved hword := token.unreserved (List.mem_append_left _ hword)

/-! ## Characters -/

theorem not_isBlank_of_isTokenChar {c : Char} (hc : isTokenChar c = true) : isBlank c = false := by
  rcases Bool.or_eq_true_iff.1 hc with hchar | hdigit
  · exact not_isBlank_of_isCallChar hchar
  · exact not_isBlank_of_isDigit hdigit

theorem not_isTokenChar_of_isBlank {c : Char} (hc : isBlank c = true) : isTokenChar c = false := by
  rw [Bool.eq_false_iff]
  intro hchar
  rw [not_isBlank_of_isTokenChar hchar] at hc
  exact nomatch hc

/-- The characters that take a text apart are none of a token. -/
theorem isTokenChar_of_mem {c : Char} (hc : c ∈ ['"', '\'', '(', '[', ')', ']'] ++ specials) :
    isTokenChar c = false := by
  have hall : ∀ c ∈ ['"', '\'', '(', '[', ')', ']'] ++ specials, isTokenChar c = false := by decide
  exact hall c hc

theorem IsBare.of_isTokenChar {c : Char} (hc : isTokenChar c = true) : IsBare c := by
  apply IsBare.of_not_mem
  intro hmem
  rw [isTokenChar_of_mem (List.mem_append_left _ hmem)] at hc
  exact nomatch hc

namespace Template

/-- The text of a template with a token in its open places. -/
def fill (token : Chars) (template : Template) : Chars :=
  template.flatMap fun piece => match piece with
    | some c => [c]
    | none => token

/-- A template without the white space at its two ends. -/
def trimmed (template : Template) : Template :=
  (template.dropWhile (·.any isBlank)).rdropWhile (·.any isBlank)

/-- What can stand next to each other: beside an open place stands no character of a name or a
numeral, and before it no square bracket opens. -/
def Beside : Option Char → Option Char → Prop
  | some _, some _ => True
  | some c, none => isTokenChar c = false ∧ c ≠ '['
  | none, some c => isTokenChar c = false
  | none, none => False

/-- The runs of a template, which end at open places. -/
def runs (template : Template) : List Template :=
  template.splitOnP fun piece => !piece.any isTokenChar

/-- Every open place stands by itself and is not called, and a word is no run of the template. -/
structure Stands (template : Template) (word : Chars) : Prop where
  beside : template.IsChain Beside
  uncalled : ∀ blanks : Chars, (∀ c ∈ blanks, isBlank c = true) →
    ¬ none :: (blanks.map some ++ [some '(']) <:+: template
  fresh : word.map some ∉ template.runs

variable {token word : Chars} {template front back : Template} {c : Char}

@[simp]
theorem fill_nil : fill token [] = [] := rfl

@[simp]
theorem fill_some (c : Char) (template : Template) :
    fill token (some c :: template) = c :: fill token template := rfl

@[simp]
theorem fill_none (template : Template) :
    fill token (none :: template) = token ++ fill token template := rfl

@[simp]
theorem fill_append (front back : Template) :
    fill token (front ++ back) = fill token front ++ fill token back := List.flatMap_append

@[simp]
theorem fill_map_some (text : Chars) : fill token (text.map some) = text := by
  induction text with
  | nil => rfl
  | cons c rest ih => rw [List.map_cons, fill_some, ih]

/-- Without an open place a template is a text. -/
theorem exists_eq_map_some (hopen : none ∉ template) :
    ∃ text : Chars, template = text.map some := by
  induction template with
  | nil => exact ⟨[], rfl⟩
  | cons piece rest ih =>
      rw [List.mem_cons, not_or] at hopen
      obtain ⟨text, rfl⟩ := ih hopen.2
      cases piece with
      | none => exact absurd rfl hopen.1
      | some c => exact ⟨c :: text, rfl⟩

/-! ## Parts of templates -/

namespace Stands

theorem infix_part {part : Template} (htemplate : template.Stands word)
    (hpart : part <:+: template) (hfresh : word.map some ∉ part.runs) : part.Stands word where
  beside := htemplate.beside.infix hpart
  uncalled blanks hblanks hwithin := htemplate.uncalled blanks hblanks (hwithin.trans hpart)
  fresh := hfresh

theorem runs_append_cons (hc : isTokenChar c = false) (front back : Template) :
    runs (front ++ some c :: back) = front.runs ++ back.runs :=
  List.splitOnP_append_cons front back (by rw [Option.any_some, hc]; rfl)

/-- What stands before a character that is none of a name. -/
theorem left (htemplate : Stands (front ++ some c :: back) word) (hc : isTokenChar c = false) :
    front.Stands word := by
  refine htemplate.infix_part (List.prefix_append _ _).isInfix fun hmem => htemplate.fresh ?_
  rw [runs_append_cons hc]
  exact List.mem_append_left _ hmem

/-- What stands behind a character that is none of a name. -/
theorem right (htemplate : Stands (front ++ some c :: back) word) (hc : isTokenChar c = false) :
    back.Stands word := by
  have hsuffix : back <:+ front ++ some c :: back :=
    (List.suffix_cons _ _).trans (List.suffix_append _ _)
  refine htemplate.infix_part hsuffix.isInfix fun hmem => htemplate.fresh ?_
  rw [runs_append_cons hc]
  exact List.mem_append_right _ hmem

theorem trimmed (htemplate : template.Stands word) : template.trimmed.Stands word := by
  have hdrop {template : Template} (htemplate : template.Stands word) :
      Stands (template.dropWhile (·.any isBlank)) word := by
    induction template with
    | nil => exact htemplate
    | cons piece rest ih =>
        rw [List.dropWhile_cons]
        split
        · next hblank =>
            obtain ⟨c, rfl, hc⟩ := (Option.any_eq_true _ _).1 hblank
            have hwhole : Stands ([] ++ some c :: rest) word := htemplate
            exact ih (hwhole.right (not_isTokenChar_of_isBlank hc))
        · exact htemplate
  have hright {template : Template} (htemplate : template.Stands word) :
      Stands (template.rdropWhile (·.any isBlank)) word := by
    induction template using List.reverseRecOn with
    | nil => exact htemplate
    | append_singleton front piece ih =>
        rw [List.rdropWhile_concat]
        split
        · next hblank =>
            obtain ⟨c, rfl, hc⟩ := (Option.any_eq_true _ _).1 hblank
            exact ih (htemplate.left (not_isTokenChar_of_isBlank hc))
        · exact htemplate
  exact hright (hdrop htemplate)

/-- A text without open places is not the word that it has no run of. -/
theorem ne {text : Chars} (htext : Stands (text.map some) word)
    (hword : ∀ c ∈ word, isTokenChar c = true) : text ≠ word := by
  rintro rfl
  apply htext.fresh
  rw [Template.runs, List.splitOnP_eq_singleton fun piece hpiece => ?_]
  · exact List.mem_cons_self
  · obtain ⟨c, hc, rfl⟩ := List.mem_map.1 hpiece
    rw [Option.any_some, hword c hc]
    rfl

end Stands

/-! ## Filled templates -/

theorem fill_reverse (template : Template) :
    (fill token template).reverse = fill token.reverse template.reverse := by
  induction template with
  | nil => rfl
  | cons piece rest ih => cases piece with
    | some c => rw [fill_some, List.reverse_cons, List.reverse_cons, fill_append, ih]; rfl
    | none =>
        rw [fill_none, List.reverse_append, List.reverse_cons, fill_append, ih, fill_none, fill_nil,
          List.append_nil]

section Filling

variable (hne : token ≠ []) (hchars : ∀ c ∈ token, isTokenChar c = true)

include hne

theorem isEmpty_fill (template : Template) : (fill token template).isEmpty = template.isEmpty := by
  cases template with
  | nil => rfl
  | cons piece rest => cases piece with
    | some c => rfl
    | none =>
        obtain ⟨first, others, rfl⟩ := List.exists_cons_of_ne_nil hne
        rfl

include hchars

omit hne in
/-- A character that is none of a token stands in a filled template only where the template has
it. -/
theorem mem_fill_iff {c : Char} (hc : isTokenChar c = false) :
    c ∈ fill token template ↔ some c ∈ template := by
  induction template with
  | nil => exact ⟨nofun, nofun⟩
  | cons piece rest ih => cases piece with
    | some other => rw [fill_some, List.mem_cons, List.mem_cons, ih, Option.some_inj]
    | none =>
        have hnot : c ∉ token := by
          intro hmem
          rw [hchars c hmem] at hc
          exact nomatch hc
        rw [fill_none, List.mem_append, List.mem_cons, ih]
        constructor
        · exact fun hmem => .inr (hmem.resolve_left hnot)
        · exact fun hmem => .inr (hmem.resolve_left nofun)

/-- Where there is only white space, no place is open. -/
theorem eq_map_some_of_blank (hblank : ∀ c ∈ fill token template, isBlank c = true) :
    template = (fill token template).map some := by
  induction template with
  | nil => rfl
  | cons piece rest ih => cases piece with
    | some c =>
        rw [fill_some, List.map_cons, ← ih fun other hother =>
          hblank other (List.mem_cons_of_mem _ hother)]
    | none =>
        obtain ⟨first, others, rfl⟩ := List.exists_cons_of_ne_nil hne
        have hfirst := hblank first List.mem_cons_self
        rw [not_isBlank_of_isTokenChar (hchars first List.mem_cons_self)] at hfirst
        exact nomatch hfirst

theorem startsGuarded_fill (template : Template) :
    startsGuarded (fill token template) = template.head?.any (·.any isGuard) := by
  have hguard : ∀ c, isTokenChar c = true → isGuard c = false := by
    intro c hc
    rw [Bool.eq_false_iff]
    intro hguard
    simp only [isGuard, Bool.or_eq_true, beq_iff_eq] at hguard
    have hmem : c ∈ ['"', '\'', '(', '[', ')', ']'] ++ specials := by
      rcases hguard with ((rfl | rfl) | rfl) | rfl <;> decide
    rw [isTokenChar_of_mem hmem] at hc
    cases hc
  cases template with
  | nil => rfl
  | cons piece rest => cases piece with
    | some c => rfl
    | none =>
        obtain ⟨first, others, rfl⟩ := List.exists_cons_of_ne_nil hne
        exact hguard first (hchars first List.mem_cons_self)

/-- Trimming at the front leaves the same part of the template, whatever it is filled with. -/
theorem trimLeft_fill (template : Template) : trimLeft (fill token template) =
    fill token (template.dropWhile (·.any isBlank)) := by
  induction template with
  | nil => rfl
  | cons piece rest ih => cases piece with
    | some c =>
        rw [fill_some, trimLeft, List.dropWhile_cons, List.dropWhile_cons, Option.any_some]
        split
        · exact ih
        · rfl
    | none =>
        rw [List.dropWhile_cons, Option.any_none, if_neg Bool.false_ne_true]
        apply trimLeft_eq_self
        intro c hc
        obtain ⟨first, others, rfl⟩ := List.exists_cons_of_ne_nil hne
        injection hc with hc
        rw [← hc]
        exact not_isBlank_of_isTokenChar (hchars first List.mem_cons_self)

theorem trim_fill (template : Template) :
    trim (fill token template) = fill token template.trimmed := by
  have hne' : token.reverse ≠ [] := fun hnil => hne (List.reverse_eq_nil_iff.1 hnil)
  have hchars' : ∀ c ∈ token.reverse, isTokenChar c = true :=
    fun c hc => hchars c (List.mem_reverse.1 hc)
  have hright := trimLeft_fill hne' hchars' (template.dropWhile (·.any isBlank)).reverse
  rw [trim, trimLeft_fill hne hchars, trimRight, fill_reverse]
  rw [trimLeft] at hright
  rw [hright, fill_reverse, List.reverse_reverse, trimmed, List.rdropWhile]

end Filling

/-! ## Signs -/

/-- A token does not stand within characters that take a text apart. -/
theorem prefix_fill_of_forall {sign : Chars} (htoken : IsToken token)
    (hsign : ∀ c ∈ sign, isTokenChar c = false) :
    sign <+: fill token template ↔ sign.map some <+: template := by
  induction sign generalizing template with
  | nil => exact ⟨fun _ => List.nil_prefix, fun _ => List.nil_prefix⟩
  | cons c rest ih =>
      obtain ⟨hc, hrest⟩ := List.forall_mem_cons.1 hsign
      cases template with
      | nil => exact ⟨nofun, nofun⟩
      | cons piece others => cases piece with
        | some other =>
            rw [fill_some, List.map_cons, List.cons_prefix_cons, List.cons_prefix_cons, ih hrest,
              Option.some_inj]
        | none =>
            obtain ⟨first, others, hfirst⟩ := List.exists_cons_of_ne_nil htoken.nonempty
            have hchar : isTokenChar first = true :=
              htoken.chars first (hfirst ▸ List.mem_cons_self)
            constructor
            · intro hstart
              rw [fill_none, hfirst, List.cons_append, List.cons_prefix_cons] at hstart
              rw [← hstart.1, hc] at hchar
              exact nomatch hchar
            · intro hstart
              rw [List.map_cons, List.cons_prefix_cons] at hstart
              exact nomatch hstart.1

/-- No open place follows a character of a token. -/
theorem not_none_of_beside (hbeside : (some c :: none :: template).IsChain Beside) :
    isTokenChar c = false := (List.isChain_cons_cons.1 hbeside).1.1

/-- No character of a token follows an open place. -/
theorem not_isTokenChar_of_head? (hbeside : (none :: template).IsChain Beside) (token : Chars) :
    ∀ c, (fill token template).head? = some c → isTokenChar c = false := by
  intro c hc
  cases template with
  | nil => exact nomatch hc
  | cons next rest => cases next with
    | none => exact (List.isChain_cons_cons.1 hbeside).1.elim
    | some other =>
        injection hc with hc
        exact hc ▸ (List.isChain_cons_cons.1 hbeside).1

/-- The rest of a word that the template has begun is all in the template. -/
theorem prefix_fill_of_begun {rest : Chars} (hrest : ∀ c ∈ rest, isTokenChar c = true)
    (hc : isTokenChar c = true) (hbeside : (some c :: template).IsChain Beside) :
    rest ++ [' '] <+: fill token template ↔ (rest ++ [' ']).map some <+: template := by
  induction rest generalizing c template with
  | nil => cases template with
    | nil => exact ⟨nofun, nofun⟩
    | cons piece others => cases piece with
      | some other => simp [List.cons_prefix_cons]
      | none => rw [not_none_of_beside hbeside] at hc; exact nomatch hc
  | cons first rest ih => cases template with
    | nil => exact ⟨nofun, nofun⟩
    | cons piece others => cases piece with
      | none => rw [not_none_of_beside hbeside] at hc; exact nomatch hc
      | some other =>
          obtain ⟨hfirst, hrest⟩ := List.forall_mem_cons.1 hrest
          rw [fill_some, List.cons_append, List.map_cons, List.cons_prefix_cons,
            List.cons_prefix_cons, Option.some_inj]
          refine and_congr_right ?_
          rintro rfl
          exact ih hrest hfirst (List.isChain_cons_cons.1 hbeside).2

/-- The word of an operator with a space behind it stands in a filled template only where the
template has it. -/
theorem prefix_fill_of_word {word : Chars} (htoken : IsToken token) (hword : word ∈ operatorWords)
    (hbeside : template.IsChain Beside) :
    word ++ [' '] <+: fill token template ↔ (word ++ [' ']).map some <+: template := by
  have hwords : ∀ word ∈ operatorWords, word ≠ [] ∧ ∀ c ∈ word, isTokenChar c = true := by decide
  obtain ⟨hne, hchars⟩ := hwords word hword
  cases template with
  | nil => simp
  | cons piece rest => cases piece with
    | some other =>
        obtain ⟨first, others, rfl⟩ := List.exists_cons_of_ne_nil hne
        obtain ⟨hfirst, hothers⟩ := List.forall_mem_cons.1 hchars
        rw [fill_some, List.cons_append, List.map_cons, List.cons_prefix_cons,
          List.cons_prefix_cons, Option.some_inj]
        refine and_congr_right ?_
        rintro rfl
        exact prefix_fill_of_begun hothers hfirst hbeside
    | none =>
        have hstop := not_isTokenChar_of_head? hbeside token
        constructor
        · rintro ⟨later, hlater⟩
          have hrun : (token ++ fill token rest).takeWhile isTokenChar = word := by
            rw [← fill_none, ← hlater, List.append_assoc]
            exact takeWhile_append_of_stop hchars (by rintro c ⟨⟩; rfl)
          rw [takeWhile_append_of_stop htoken.chars hstop] at hrun
          exact absurd (hrun ▸ hword) htoken.unreserved
        · intro hstart
          obtain ⟨first, others, rfl⟩ := List.exists_cons_of_ne_nil hne
          rw [List.cons_append, List.map_cons, List.cons_prefix_cons] at hstart
          exact nomatch hstart.1

end Template

/-! ## Operators -/

open Template

/-- An operator at which texts are split. -/
inductive IsSign : Chars → Prop where
  | marks {sign : Chars} (hne : sign ≠ []) (hsign : ∀ c ∈ sign, isTokenChar c = false) : IsSign sign
  | word {word : Chars} (hword : word ∈ operatorWords) : IsSign (' ' :: (word ++ [' ']))

namespace IsSign

variable {sign : Chars}

theorem exists_head (hsign : IsSign sign) :
    ∃ c rest, sign = c :: rest ∧ isTokenChar c = false := by
  cases hsign with
  | marks hne hsign =>
      obtain ⟨c, rest, rfl⟩ := List.exists_cons_of_ne_nil hne
      exact ⟨c, rest, rfl, hsign c List.mem_cons_self⟩
  | word _ => exact ⟨' ', _, rfl, by decide⟩

theorem exists_last (hsign : IsSign sign) :
    ∃ front c, sign = front ++ [c] ∧ isTokenChar c = false := by
  cases hsign with
  | marks hne hsign =>
      refine ⟨sign.dropLast, sign.getLast hne, (List.dropLast_concat_getLast hne).symm, ?_⟩
      exact hsign _ (List.getLast_mem hne)
  | word _ => exact ⟨' ' :: _, ' ', rfl, by decide⟩

/-- An operator stands at a character of a filled template only where the template has it. -/
theorem prefix_fill {token : Chars} (hsign : IsSign sign) (htoken : IsToken token) {c : Char}
    {template : Template} (hbeside : (some c :: template).IsChain Beside) :
    sign <+: fill token (some c :: template) ↔ sign.map some <+: some c :: template := by
  cases hsign with
  | marks _ hsign => exact prefix_fill_of_forall htoken hsign
  | word hword =>
      have hrest : template.IsChain Beside := hbeside.tail
      rw [fill_some, List.map_cons, List.cons_prefix_cons, List.cons_prefix_cons,
        prefix_fill_of_word htoken hword hrest, Option.some_inj]

/-- Whether an operator stands at a character is decided by the template. -/
theorem standsHere_fill {token : Chars} (hsign : IsSign sign) (htoken : IsToken token) {c : Char}
    (front : Template) {template : Template}
    (hbeside : (some c :: template).IsChain Beside) :
    standsHere sign (fill token front).reverse (fill token (some c :: template)) =
      (decide (sign.map some <+: some c :: template) &&
        !(sign.length == 1 && (front.reverse.head?.any (·.any isGuard) ||
          template.head?.any (·.any isGuard)))) := by
  have hstart : sign.isPrefixOf (fill token (some c :: template)) =
      decide (sign.map some <+: some c :: template) := by
    rw [Bool.eq_iff_iff, List.isPrefixOf_iff_prefix, decide_eq_true_eq]
    exact hsign.prefix_fill htoken hbeside
  have hreverse : token.reverse ≠ [] := fun hnil => htoken.nonempty (List.reverse_eq_nil_iff.1 hnil)
  have hchars : ∀ c ∈ token.reverse, isTokenChar c = true :=
    fun c hc => htoken.chars c (List.mem_reverse.1 hc)
  rw [standsHere, hstart, fill_reverse, startsGuarded_fill hreverse hchars,
    fill_some, List.drop_one, List.tail_cons,
    startsGuarded_fill htoken.nonempty htoken.chars]

/-- What stands on both sides of an operator in a template. -/
theorem cut {word : Chars} (hsign : IsSign sign) {front back : Template}
    (hstands : Stands (front ++ back) word) (hstart : sign.map some <+: back) :
    front.Stands word ∧ ∃ later, sign.map some ++ later = back ∧ Stands later word := by
  obtain ⟨later, rfl⟩ := hstart
  constructor
  · obtain ⟨c, rest, rfl, hc⟩ := hsign.exists_head
    exact hstands.left hc
  · refine ⟨later, rfl, ?_⟩
    obtain ⟨start, c, rfl, hc⟩ := hsign.exists_last
    have hwhole : Stands ((front ++ start.map some) ++ some c :: later) word := by
      simpa using hstands
    exact hwhole.right hc

end IsSign

/-- A scan has only met marks that are quotes. -/
def Nesting.Quoted (state : Nesting) : Prop := ∀ mark, state.quote = some mark → isQuote mark = true

theorem Nesting.Quoted.step {state : Nesting} (hstate : state.Quoted) (c : Char) :
    (state.step c).1.Quoted := by
  intro mark hmark
  rw [Nesting.step] at hmark
  split at hmark
  · next quote hquote =>
      split at hmark
      · cases hmark
      · exact hstate mark hmark
  · next hnone =>
      split at hmark
      · next hquote =>
          injection hmark with hmark
          exact hmark ▸ hquote
      · split at hmark
        · cases hmark
        · split at hmark
          · cases hmark
          · exact hstate mark hmark

theorem Nesting.step_of_isTokenChar {state : Nesting} (hstate : state.Quoted) {c : Char}
    (hc : isTokenChar c = true) : (state.step c).1 = state := by
  obtain ⟨depth, quote⟩ := state
  cases quote with
  | none => rw [Nesting.step_bare depth (.of_isTokenChar hc)]
  | some mark =>
      have hne : c ≠ mark := by
        rintro rfl
        have hquote := hstate c rfl
        rw [(IsBare.of_isTokenChar hc).1] at hquote
        exact nomatch hquote
      rw [Nesting.step_quoted depth hne]

/-- A scan goes over a token. -/
theorem Scans.token {β : Type} {scan : Nesting → Chars → Chars → β} {stops : Chars → Chars → Bool}
    (hscan : Scans scan stops) {token : Chars} (htoken : ∀ c ∈ token, isTokenChar c = true)
    (hstops : ∀ c, isTokenChar c = true → ∀ before rest, stops before (c :: rest) = false)
    {state : Nesting} (hstate : state.Quoted) (before rest : Chars) :
    scan state before (token ++ rest) = scan state (token.reverse ++ before) rest := by
  induction token generalizing before with
  | nil => rfl
  | cons c others ih =>
      obtain ⟨hc, hothers⟩ := List.forall_mem_cons.1 htoken
      have hpass : ((state.step c).2 && stops before (c :: (others ++ rest))) = false := by
        rw [hstops c hc, Bool.and_false]
      rw [List.cons_append, hscan _ _ _ _ hpass, Nesting.step_of_isTokenChar hstate hc, ih hothers,
        List.reverse_cons, List.append_assoc]
      rfl

/-- A scan goes over an open place, whatever it is filled with. -/
theorem Scans.fill_none {β : Type} {scan : Nesting → Chars → Chars → β}
    {stops : Chars → Chars → Bool} (hscan : Scans scan stops) {token : Chars}
    (htoken : IsToken token)
    (hstops : ∀ c, isTokenChar c = true → ∀ before rest, stops before (c :: rest) = false)
    {state : Nesting} (hstate : state.Quoted) (front back : Template) :
    scan state (fill token front).reverse (fill token (none :: back)) =
      scan state (fill token (front ++ [none])).reverse (fill token back) := by
  rw [Template.fill_none, hscan.token htoken.chars hstops hstate, fill_append, List.reverse_append,
    Template.fill_none, fill_nil, List.append_nil]

/-! ## Brackets -/

/-- A token opens and closes nothing. -/
theorem closesFrom_token {token : Chars} (htoken : ∀ c ∈ token, isTokenChar c = true) (depth : Nat)
    {quote : Option Char} (hquote : ∀ mark, quote = some mark → isQuote mark = true)
    (rest : Chars) : closesFrom depth quote (token ++ rest) = closesFrom depth quote rest := by
  induction token with
  | nil => rfl
  | cons c others ih =>
      obtain ⟨hc, hothers⟩ := List.forall_mem_cons.1 htoken
      obtain ⟨hbare, hopen, _, hclose, _⟩ := IsBare.of_isTokenChar hc
      cases quote with
      | none =>
          rw [List.cons_append, closesFrom, hbare, if_neg Bool.false_ne_true, if_neg hopen,
            if_neg hclose, ih hothers]
      | some mark =>
          have hne : c ≠ mark := by
            rintro rfl
            rw [hquote c rfl] at hbare
            cases hbare
          rw [List.cons_append, closesFrom, if_neg hne, ih hothers]

theorem isWrapped_token {token : Chars} (htoken : IsToken token) (rest : Chars) :
    isWrapped (token ++ rest) = false := by
  obtain ⟨first, others, rfl⟩ := List.exists_cons_of_ne_nil htoken.nonempty
  exact isWrapped_cons (IsBare.of_isTokenChar (htoken.chars first List.mem_cons_self)).2.1 _

/-- The bracket that closes the first one is the last character. -/
theorem getLast?_of_closesFrom {depth : Nat} {quote : Option Char} {text : Chars}
    (hcloses : closesFrom depth quote text = true) : text.getLast? = some ')' := by
  have hcons {c : Char} {rest : Chars} (hrest : rest.getLast? = some ')') :
      (c :: rest).getLast? = some ')' := by
    rw [List.getLast?_cons, hrest, Option.getD_some]
  induction text generalizing depth quote with
  | nil => exact nomatch hcloses
  | cons c rest ih =>
      cases quote with
      | some mark => exact hcons (ih hcloses)
      | none =>
          rw [closesFrom] at hcloses
          split at hcloses
          · exact hcons (ih hcloses)
          · split at hcloses
            · exact hcons (ih hcloses)
            · split at hcloses
              · next hclose =>
                  split at hcloses
                  · rw [hclose, List.isEmpty_iff.1 hcloses]
                    rfl
                  · exact hcons (ih hcloses)
              · exact hcons (ih hcloses)

end Backtest.Expr
