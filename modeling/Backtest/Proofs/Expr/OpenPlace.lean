import Backtest.Proofs.Decimal.Sign
import Backtest.Proofs.Expr.Exchanged

/-!
# Open places in what is not taken apart

A template with more in it than one open place is no name, no history and no text between quotes
whichever token it is filled with, and if it makes a number with a name in it, it does so with a
numeral (`number?_fill`): the name can only be a word like `inf` behind a sign.

A token in a text can be taken out of it where it stands alone (`StandsAlone.stands`).
-/

namespace Backtest.Expr

open Text Template

/-! ## Open places in a leaf -/

section Places

variable {word token old new : Chars} {template : Template}

/-- What stands before an open place, and what behind it. -/
theorem around_open {front back : Template} (hbeside : (front ++ none :: back).IsChain Beside) :
    (front = [] ∨ ∃ start c, front = start ++ [some c] ∧ isTokenChar c = false ∧ c ≠ '[') ∧
      (back = [] ∨ ∃ c rest, back = some c :: rest ∧ isTokenChar c = false) := by
  constructor
  · rcases List.eq_nil_or_concat front with rfl | ⟨start, piece, rfl⟩
    · exact .inl rfl
    · rw [List.concat_eq_append, List.append_assoc, List.singleton_append] at hbeside
      have hlast : Beside piece none := (List.isChain_cons_cons.1 hbeside.right_of_append).1
      cases piece with
      | some c => exact .inr ⟨start, c, List.concat_eq_append, hlast⟩
      | none => exact hlast.elim
  · cases back with
    | nil => exact .inl rfl
    | cons piece rest =>
        have hnext : Beside none piece := (List.isChain_cons_cons.1 hbeside.right_of_append).1
        cases piece with
        | some c => exact .inr ⟨c, rest, rfl, hnext⟩
        | none => exact hnext.elim

/-- Something stands beside an open place, unless it is all of the template. -/
theorem exists_mem_of_open (hbeside : template.IsChain Beside) (hopen : none ∈ template)
    (hne : template ≠ [none]) : ∃ c, some c ∈ template ∧ isTokenChar c = false := by
  obtain ⟨front, back, rfl⟩ := List.append_of_mem hopen
  rcases around_open hbeside with ⟨rfl | ⟨start, c, rfl, hc, _⟩, rfl | ⟨d, rest, rfl, hd⟩⟩
  · exact absurd rfl hne
  · exact ⟨d, by simp, hd⟩
  · exact ⟨c, by simp, hc⟩
  · exact ⟨c, by simp, hc⟩

theorem runs_append_cons {c : Char} (hc : isTokenChar c = false) (front back : Chars) :
    runs (front ++ c :: back) = runs front ++ runs back :=
  List.splitOnP_append_cons front back (by rw [hc]; rfl)

theorem runs_of_forall {text : Chars} (htext : ∀ c ∈ text, isTokenChar c = true) :
    runs text = [text] :=
  List.splitOnP_eq_singleton fun c hc => by rw [htext c hc]; rfl

/-- A token in an open place is a run of the text. -/
theorem mem_runs_fill (htoken : IsToken token) (hbeside : template.IsChain Beside)
    (hopen : none ∈ template) : token ∈ runs (fill token template) := by
  obtain ⟨front, back, rfl⟩ := List.append_of_mem hopen
  obtain ⟨hfront, hback⟩ := around_open hbeside
  have htail : token ∈ runs (token ++ fill token back) := by
    rcases hback with rfl | ⟨c, rest, rfl, hc⟩
    · rw [fill_nil, List.append_nil, runs_of_forall htoken.chars]
      exact List.mem_cons_self
    · rw [fill_some, runs_append_cons hc, runs_of_forall htoken.chars]
      exact List.mem_cons_self
  rw [fill_append, Template.fill_none]
  rcases hfront with rfl | ⟨start, c, rfl, hc, _⟩
  · exact htail
  · rw [fill_append, fill_some, fill_nil, List.append_assoc, List.singleton_append,
      runs_append_cons hc]
    exact List.mem_append_right _ htail

/-- Different tokens make different texts. -/
theorem fill_ne_fill (hold : IsToken old) (hnew : IsToken new) (hne : old ≠ new)
    (hbeside : template.IsChain Beside) (hopen : none ∈ template) :
    fill old template ≠ fill new template := by
  obtain ⟨front, back, rfl, hfront⟩ := List.eq_append_cons_of_mem hopen
  obtain ⟨text, rfl⟩ := exists_eq_map_some hfront
  have hstop := not_isTokenChar_of_head? hbeside.right_of_append
  intro heq
  rw [fill_append, fill_append, fill_map_some, fill_map_some, List.append_cancel_left_eq,
    Template.fill_none, Template.fill_none] at heq
  have hrun := congrArg (List.takeWhile isTokenChar) heq
  rw [takeWhile_append_of_stop hold.chars (hstop old),
    takeWhile_append_of_stop hnew.chars (hstop new)] at hrun
  exact hne hrun

/-- A place between two texts stands by itself: no character of a name or a numeral is beside it, no
square bracket opens before it, and no round one behind it. -/
structure StandsAlone (front back : Chars) : Prop where
  before : ∀ c, front.getLast? = some c → isTokenChar c = false ∧ c ≠ '['
  behind : ∀ c, back.head? = some c → isTokenChar c = false
  uncalled : (trimLeft back).head? ≠ some '('

theorem runs_map_some (text : Chars) :
    Template.runs (text.map some) = (runs text).map (List.map some) := by
  induction text with
  | nil => rfl
  | cons c rest ih =>
      rw [Template.runs, runs] at ih
      rw [Template.runs, runs, List.map_cons, List.splitOnP_cons_eq_if_modifyHead,
        List.splitOnP_cons_eq_if_modifyHead, Option.any_some, ih]
      split
      · rfl
      · cases List.splitOnP (fun c => !isTokenChar c) rest <;> rfl

namespace StandsAlone

variable {front back : Chars} (halone : StandsAlone front back)

include halone

/-- The runs on the two sides of a token are runs of the whole text. -/
theorem mem_runs (hne : word ≠ [])
    (hmem : word ∈ runs front ∨ word ∈ runs back) : word ∈ runs (front ++ (token ++ back)) := by
  have hback : word ∈ runs back → word ∈ runs (token ++ back) := by
    intro hmem
    cases back with
    | nil => exact absurd (List.mem_singleton.1 hmem) hne
    | cons c rest =>
        have hc := halone.behind c rfl
        have hsplit : runs (c :: rest) = [[]] ++ runs rest := runs_append_cons hc [] rest
        rw [hsplit, List.singleton_append, List.mem_cons] at hmem
        rw [runs_append_cons hc]
        exact List.mem_append_right _ (hmem.resolve_left hne)
  rcases List.eq_nil_or_concat front with rfl | ⟨start, c, rfl⟩
  · exact hback (hmem.resolve_left fun hnil => hne (List.mem_singleton.1 hnil))
  · rw [List.concat_eq_append] at hmem ⊢
    have hc := (halone.before c (by rw [List.concat_eq_append, List.getLast?_concat])).1
    rw [List.append_assoc, List.singleton_append, runs_append_cons hc, List.mem_append]
    refine hmem.imp (fun hmem => ?_) hback
    rw [runs_append_cons hc, List.mem_append] at hmem
    exact hmem.resolve_right fun hnil => hne (List.mem_singleton.1 hnil)

/-- A place that stands by itself can be left open. -/
theorem stands (hne : word ≠ []) (hfresh : word ∉ runs (front ++ (token ++ back))) :
    Stands (front.map some ++ none :: back.map some) word where
  beside := by
    have hchars (text : Chars) : (text.map some).IsChain Beside := by
      rw [List.isChain_map, List.isChain_iff_forall_rel_of_append_cons_cons]
      exact fun _ _ _ _ _ => trivial
    refine List.IsChain.append (hchars front) (List.isChain_cons.2 ⟨?_, hchars back⟩) ?_
    · intro piece hpiece
      rw [List.head?_map] at hpiece
      obtain ⟨c, hc, rfl⟩ := Option.map_eq_some_iff.1 hpiece
      exact halone.behind c hc
    · intro piece hpiece next hnext
      rw [List.getLast?_map] at hpiece
      obtain ⟨c, hc, rfl⟩ := Option.map_eq_some_iff.1 hpiece
      obtain rfl := Option.some_inj.1 hnext
      exact halone.before c hc
  uncalled := by
    rintro blanks hblanks ⟨start, later, heq⟩
    have hnone (text : Chars) : none ∉ text.map some := by simp
    rw [List.append_assoc, List.cons_append, eq_comm,
      List.append_cons_inj_of_notMem (hnone front) (hnone back)] at heq
    obtain ⟨called, rest, rfl, hcalled, _⟩ := List.map_eq_append_iff.1 heq.2.2
    have hblanks' : called = blanks ++ ['('] := by
      apply List.map_injective_iff.2 fun _ _ => Option.some_inj.1
      rw [hcalled, List.map_append]
      rfl
    apply halone.uncalled
    rw [hblanks', List.append_assoc, trimLeft, List.dropWhile_append_of_pos hblanks]
    rfl
  fresh := by
    intro hmem
    have hsplit : Template.runs (front.map some ++ none :: back.map some) =
        (runs front ++ runs back).map (List.map some) := by
      rw [List.map_append, ← runs_map_some, ← runs_map_some]
      exact List.splitOnP_append_cons _ _ rfl
    rw [hsplit, List.mem_map_of_injective (List.map_injective_iff.2 fun _ _ => Option.some_inj.1),
      List.mem_append] at hmem
    exact hfresh (halone.mem_runs hne hmem)

end StandsAlone

end Places

/-! ## Numerals -/

section Numerals

variable {template : Template} {numeral : NumeralToken} {name : NameToken}

theorem isTokenChar_of_isFigure {c : Char} (hc : Decimal.IsFigure c) : isTokenChar c = true := by
  rcases hc with hdigit | hmark
  · rw [isTokenChar, hdigit, Bool.or_true]
  · have hall : ∀ c ∈ ['_', '.', 'e', 'E'], isTokenChar c = true := by decide
    exact hall c hmark

theorem isTokenChar_of_isAlpha {c : Char} (hc : c.isAlpha = true) : isTokenChar c = true := by
  rw [isTokenChar, isCallChar, isWord, Char.isAlphanum, hc]
  rfl

theorem isTokenChar_of_sign {c : Char} (hc : c ∈ ['+', '-']) : isTokenChar c = false := by
  have hall : ∀ c ∈ ['+', '-'], isTokenChar c = false := by decide
  exact hall c hc

/-- No name begins like a numeral. -/
theorem NameToken.not_beginsNumeral (name : NameToken) : ¬ Decimal.BeginsNumeral name.text := by
  rintro ⟨c, rest, htext, hc⟩
  have hname := name.identifier
  rw [htext, isIdentifier, Bool.and_eq_true] at hname
  obtain ⟨hdigit, hmark⟩ := not_isDigit_of_isNameStart hname.1
  rcases hc with hc | rfl
  · rw [hdigit] at hc
    cases hc
  · exact hmark (by decide)

/-- Only a sign can stand beside a token in a text that is one run behind its sign. -/
theorem eq_signed_of_run {token : Chars} (htoken : IsToken token)
    (hbeside : template.IsChain Beside) (hopen : none ∈ template) (hne : template ≠ [none])
    (hrun : ∀ c ∈ (Decimal.takeSign (fill token template)).2, isTokenChar c = true) :
    ∃ sign ∈ ['+', '-'], template = [some sign, none] := by
  have halone {part : Template} (hpart : part.IsChain Beside) (hnone : none ∈ part)
      (hfill : fill token part = (Decimal.takeSign (fill token template)).2) : part = [none] := by
    by_contra hmore
    obtain ⟨c, hc, hnot⟩ := exists_mem_of_open hpart hnone hmore
    have hmem := (mem_fill_iff htoken.chars hnot).2 hc
    rw [hrun c (hfill ▸ hmem)] at hnot
    exact nomatch hnot
  rcases Decimal.takeSign_cases (fill token template) with htext | ⟨sign, hsign, htext⟩
  · exact absurd (halone hbeside hopen htext) hne
  · cases template with
    | nil => exact absurd hopen List.not_mem_nil
    | cons piece rest => cases piece with
      | none =>
          obtain ⟨first, others, hfirst⟩ := List.exists_cons_of_ne_nil htoken.nonempty
          rw [Template.fill_none, hfirst, List.cons_append] at htext
          injection htext with hsame
          have hchar := htoken.chars first (hfirst ▸ List.mem_cons_self)
          rw [hsame, isTokenChar_of_sign hsign] at hchar
          exact nomatch hchar
      | some c =>
          obtain ⟨hsame, hbody⟩ := List.cons_eq_cons.1 htext
          have hrest : rest = [none] :=
            halone hbeside.tail ((List.mem_cons.1 hopen).resolve_left nofun) hbody
          exact ⟨sign, hsign, by rw [hsame, hrest]⟩

/-- A text with a name in it that reads as a number does so with a numeral in its place. -/
theorem number?_fill {α : Type} [Arith α] {x : α} (hbeside : template.IsChain Beside)
    (hopen : none ∈ template) (hne : template ≠ [none])
    (htrimmed : IsTrimmed (fill name.text template))
    (hread : Decimal.number? (fill name.text template) = some x) :
    ∃ y : α, Decimal.number? (fill numeral.text template) = some y := by
  have hpadded := Decimal.unpadded_of_isTrimmed htrimmed
  have hrun := mem_runs_fill name.isToken hbeside hopen
  rcases Decimal.parts_of_number? hpadded hread with ⟨_, hchars⟩ |
    ⟨front, sign, back, hbody, hsign, hfront, hfrontStart, hback, hbackStart⟩
  · obtain ⟨sign, hsign, rfl⟩ := eq_signed_of_run name.isToken hbeside hopen hne fun c hc =>
      (hchars c hc).elim isTokenChar_of_isFigure isTokenChar_of_isAlpha
    obtain ⟨signed, hsigned⟩ := Decimal.scriptNumeral?_signed hsign numeral.unsigned.1
      numeral.unsigned.2 numeral.reads
    rw [fill_some, Template.fill_none, fill_nil, List.append_nil]
    exact ⟨_, Decimal.number?_of_scriptNumeral? hsigned⟩
  · -- Two runs: each of them begins like a numeral, and a name does not.
    have hruns : runs (front ++ sign :: back) = [front, back] := by
      rw [runs_append_cons (isTokenChar_of_sign hsign),
        runs_of_forall fun c hc => isTokenChar_of_isFigure (hfront c hc),
        runs_of_forall fun c hc => isTokenChar_of_isFigure (hback c hc)]
      rfl
    have hmem : name.text ∈ [[], front, back] := by
      rcases Decimal.takeSign_cases (fill name.text template) with htext | ⟨first, hfirst, htext⟩
      · rw [htext, hbody, hruns] at hrun
        exact List.mem_cons_of_mem _ hrun
      · rw [htext, hbody] at hrun
        have hsplit : runs (first :: (front ++ sign :: back)) = [[], front, back] :=
          (runs_append_cons (isTokenChar_of_sign hfirst) [] _).trans (by rw [hruns]; rfl)
        rwa [hsplit] at hrun
    simp only [List.mem_cons, List.not_mem_nil, or_false] at hmem
    rcases hmem with hnil | hmem | hmem
    · exact absurd hnil name.nonempty
    · exact absurd (hmem ▸ hfrontStart) name.not_beginsNumeral
    · exact absurd (hmem ▸ hbackStart) name.not_beginsNumeral

end Numerals

/-! ## Leaves with an open place -/

section Leaves

variable {α : Type} [Arith α] {context : Context α} {token old new : Chars} {template : Template}

theorem isTokenChar_of_isWord {c : Char} (hc : isWord c = true) : isTokenChar c = true := by
  rw [isTokenChar, isCallChar_of_isWord hc, Bool.true_or]

/-- What stands beside an open place is no part of a name. -/
theorem not_forall_of_open (hbeside : template.IsChain Beside) (hopen : none ∈ template)
    (hne : template ≠ [none]) (htoken : ∀ c ∈ token, isTokenChar c = true) :
    ¬ ∀ c ∈ fill token template, isTokenChar c = true := by
  intro hall
  obtain ⟨c, hc, hnot⟩ := exists_mem_of_open hbeside hopen hne
  rw [hall c ((mem_fill_iff htoken hnot).2 hc)] at hnot
  exact nomatch hnot

theorem isIdentifier_fill (hbeside : template.IsChain Beside) (hopen : none ∈ template)
    (hne : template ≠ [none]) (htoken : ∀ c ∈ token, isTokenChar c = true) :
    isIdentifier (fill token template) = false := by
  rw [Bool.eq_false_iff]
  intro hname
  exact not_forall_of_open hbeside hopen hne htoken fun c hc =>
    isTokenChar_of_isWord (isWord_of_isIdentifier hname c hc)

/-- A text between quotes is one whatever is filled in. -/
theorem textLiteral?_fill (hnew : IsToken new)
    (hnone : textLiteral? (fill old template) = none) :
    textLiteral? (fill new template) = none := by
  have hquotes : ∀ c, isQuote c = true → isTokenChar c = false := by
    intro c hc
    apply isTokenChar_of_mem
    rw [isQuote, Bool.or_eq_true, beq_iff_eq, beq_iff_eq] at hc
    rcases hc with rfl | rfl <;> decide
  cases template with
  | nil => rfl
  | cons piece rest => cases piece with
    | none =>
        obtain ⟨first, others, rfl⟩ := List.exists_cons_of_ne_nil hnew.nonempty
        have hfirst := (IsBare.of_isTokenChar (hnew.chars first List.mem_cons_self)).1
        rw [Template.fill_none, List.cons_append, textLiteral?, hfirst, Bool.false_and,
          if_neg Bool.false_ne_true]
    | some c =>
        rw [fill_some, textLiteral?] at hnone ⊢
        by_cases hends : (isQuote c && (fill new rest).getLast? == some c) = true
        · rw [Bool.and_eq_true, beq_iff_eq] at hends
          obtain ⟨front, rfl⟩ := exists_of_getLast?_fill hnew (hquotes c hends.1) hends.2
          rw [fill_append, fill_some, fill_nil, List.getLast?_concat, hends.1, BEq.rfl,
            Bool.and_self, if_pos rfl] at hnone
          cases hnone
        · rw [if_neg hends]

/-- No token is filled into a count in brackets: no digit stands before one, and a count has digits
only. -/
theorem not_mem_of_history?_fill {front back : Template} {name count : Chars}
    (hbeside : (front ++ some '[' :: back).IsChain Beside) (htoken : IsToken token)
    (hparts : history? (fill token (front ++ some '[' :: back)) = some (name, count))
    (hcount : count ++ [']'] = fill token back) : none ∉ back := by
  intro hopen
  obtain ⟨start, rest, rfl⟩ := List.append_of_mem hopen
  have hwhole : ((front ++ some '[' :: start) ++ none :: rest).IsChain Beside := by
    simpa using hbeside
  obtain ⟨hnil | ⟨others, c, hsplit, hc, hsquare⟩, _⟩ := around_open hwhole
  · exact absurd hnil (by simp)
  · rcases List.eq_nil_or_concat start with rfl | ⟨first, piece, rfl⟩
    · have hlast := congrArg List.getLast? hsplit
      rw [List.getLast?_concat, List.getLast?_concat, Option.some_inj, Option.some_inj] at hlast
      exact hsquare hlast.symm
    · have hlast := congrArg List.getLast? hsplit
      rw [List.concat_eq_append, ← List.cons_append, ← List.append_assoc, List.getLast?_concat,
        List.getLast?_concat, Option.some_inj] at hlast
      have hshown := congrArg List.dropLast hcount
      rw [List.dropLast_concat, List.concat_eq_append, hlast, fill_append, fill_append,
        Template.fill_none, fill_some, fill_nil, List.dropLast_append_of_ne_nil
          (List.append_ne_nil_of_left_ne_nil htoken.nonempty _)] at hshown
      have hdigit := digits_of_history? hparts c (by rw [hshown]; simp)
      rw [isTokenChar, hdigit, Bool.or_true] at hc
      cases hc

/-- No number has a history, and a count in brackets holds no token. -/
theorem history_fill (hbeside : template.IsChain Beside) (hopen : none ∈ template)
    (htoken : IsToken token) (hvalue : ∀ value,
      context.env.value? (String.ofList token) = some value → ∃ x, value = .number x) :
    history context (fill token template) = .ok none := by
  have hbracket : isTokenChar '[' = false := by decide
  rw [history]
  cases hparts : history? (fill token template) with
  | none => rfl
  | some parts =>
      obtain ⟨name, count⟩ := parts
      have htext := eq_of_history? hparts
      have hwords := isWord_of_history? hparts
      have hmem : some '[' ∈ template := by
        rw [← mem_fill_iff htoken.chars hbracket, htext]
        exact List.mem_append_right _ List.mem_cons_self
      obtain ⟨front, back, rfl, hfront⟩ := List.eq_append_cons_of_mem hmem
      have hcut : cutAt '[' (fill token (front ++ some '[' :: back)) =
          some (fill token front, fill token back) := by
        rw [fill_append, fill_some]
        exact cutAt_append fun hmem => hfront ((mem_fill_iff htoken.chars hbracket).1 hmem)
      have hname : '[' ∉ name := fun hmem => absurd (hwords '[' hmem) (by decide)
      rw [htext, cutAt_append hname] at hcut
      injection hcut with hcut
      injection hcut with hname hcount
      rcases List.mem_append.1 hopen with hopen | hopen
      · -- The open place is all of the name, and a number has no history.
        have halone : front = [none] := by
          by_contra hmore
          refine not_forall_of_open hbeside.left_of_append hopen hmore htoken.chars fun c hc => ?_
          exact isTokenChar_of_isWord (hwords c (hname ▸ hc))
        have hsame : name = token := by
          rw [hname, halone, Template.fill_none, fill_nil, List.append_nil]
        dsimp only
        cases hfound : context.env.value? (String.ofList name) with
        | none => rfl
        | some value =>
            obtain ⟨x, rfl⟩ := hvalue value (hsame ▸ hfound)
            rfl
      · exact absurd (List.mem_of_ne_of_mem (by simp) hopen)
          (not_mem_of_history?_fill hbeside htoken hparts hcount)

/-- A text that is no number is no window length. -/
theorem windowOf_default {text : Chars} (hnamed : Named context.env)
    (hname : isIdentifier (trim text) = false)
    (hnumber : (Decimal.number? (trim text) : Option α) = none) (default : Nat) :
    windowOf context (some text) default = .ok default := by
  rw [windowOf, hnamed.value?_eq_none hname]
  dsimp only
  rw [Scalar.period, Scalar.period?, Scalar.toReal?, Scalar.toReal, String.toList_ofList, hnumber]
  rfl

theorem windowOf_trim (text : Chars) (default : Nat) :
    windowOf context (some (trim text)) default = windowOf context (some text) default := by
  rw [windowOf, windowOf, trim_trim]

theorem atom_eq_none {text : Chars} (hliteral : textLiteral? text = none)
    (hnumeral : Decimal.scriptNumeral? text = none) (hname : isIdentifier text = false) :
    atom context text = .ok none := by
  have htruth : ∀ word ∈ ["true".toList, "false".toList], text ≠ word := by
    intro word hword heq
    have hwords : ∀ word ∈ ["true".toList, "false".toList], isIdentifier word = true := by decide
    rw [heq, hwords word hword] at hname
    exact nomatch hname
  rw [atom, hliteral, hnumeral]
  dsimp only
  rw [if_neg (htruth _ (by decide)), if_neg (htruth _ (by decide)), hname,
    if_neg Bool.false_ne_true]

end Leaves

end Backtest.Expr
