import Backtest.Proofs.Expr.Part
import Backtest.Proofs.Input.Literal
import Backtest.Proofs.Input.Scan
import Backtest.Proofs.Text.Line

/-!
# Writing a default

Where the arguments of a declaration give their default as a plain literal, in the first position or
behind `defval=`, the writer exchanges this literal for the new text (`PlainDefault.update`).  The
reader then finds the new text as the default and all other arguments as they were, and the new
arguments neither end the declaration earlier nor open another one.
-/

namespace Backtest.Input

open Text Decimal Backtest.Expr

/-! ## New texts -/

/-- A value that holds no bracket and in which no heading begins. -/
structure IsNewText (text : Chars) : Prop extends IsValue text where
  notOpen : '(' ∉ text
  notClose : ')' ∉ text
  noHeading : ∀ part, part <:+ text → part ≠ [] → ∀ rest, heading? (part ++ rest) = none
  notInput : ∀ rest, after? "input".toList (text ++ rest) = none

theorem heading?_eq_none_of_head {c : Char} (hblank : isBlank c = false) (hequal : c ≠ '=')
    (rest : Chars) : heading? (c :: rest) = none := by
  cases hkind : heading? (c :: rest) with
  | none => rfl
  | some kind =>
      obtain ⟨front, back, htext, hfront, _⟩ := heading?_eq_some hkind
      cases front with
      | nil =>
          injection htext with hc
          exact absurd hc hequal
      | cons d front =>
          injection htext with hc
          have hd := hfront d List.mem_cons_self
          rw [← hc, hblank] at hd
          exact nomatch hd

theorem heading?_eq_none_of_quote {mark : Char} (hmark : isQuote mark = true) {text : Chars}
    (hmem : mark ∈ text) : heading? text = none := by
  cases hkind : heading? text with
  | none => rfl
  | some kind =>
      obtain ⟨front, back, rfl, hfront, _, hback⟩ := heading?_eq_some hkind
      have hmarks : mark ∈ marks ∧ mark ≠ '=' := by
        rw [isQuote, Bool.or_eq_true, beq_iff_eq, beq_iff_eq] at hmark
        rcases hmark with rfl | rfl <;> decide
      rcases List.mem_append.1 hmem with hmem | hmem
      · exact absurd hmarks.1 (not_mem_marks_of_isBlank (hfront mark hmem))
      · rcases List.mem_cons.1 hmem with heq | hmem
        · exact absurd heq hmarks.2
        · exact absurd hmarks.1 (hback mark hmem)

theorem after?_cons_eq_none {c d : Char} (hne : c ≠ d) (start rest : Chars) :
    after? (c :: start) (d :: rest) = none := by
  cases hafter : after? (c :: start) (d :: rest) with
  | none => rfl
  | some later =>
      injection after?_eq_some_iff.1 hafter with hc
      exact absurd hc.symm hne

theorem isNewText_of_forall {text : Chars} (hne : text ≠ []) (htext : ∀ c ∈ text, IsPlain c)
    (hhead : text.head? ≠ some 'i') : IsNewText text := by
  refine ⟨isValue_of_forall hne htext, fun hmem => (htext _ hmem).2.1.2.1 rfl,
    fun hmem => (htext _ hmem).2.1.2.2.2.1 rfl, ?_, ?_⟩
  · intro part hpart hne rest
    obtain ⟨c, others, rfl⟩ := List.exists_cons_of_ne_nil hne
    have hc := htext c (hpart.subset List.mem_cons_self)
    exact heading?_eq_none_of_head hc.1 hc.2.2.2 (others ++ rest)
  · intro rest
    obtain ⟨c, others, rfl⟩ := List.exists_cons_of_ne_nil hne
    apply after?_cons_eq_none
    rintro rfl
    exact hhead rfl

theorem isNewText_quoted {content : Chars}
    (hcontent : ∀ c ∈ content, isQuote c = false ∧ c ≠ '(' ∧ c ≠ ')') :
    IsNewText ('"' :: (content ++ ['"'])) := by
  have hbracket {c : Char} (hc : ∀ d ∈ content, d ≠ c) (hquote : c ≠ '"') :
      c ∉ '"' :: (content ++ ['"']) := by
    simp only [List.mem_cons, List.mem_append, List.not_mem_nil, or_false, not_or]
    exact ⟨hquote, fun hmem => hc c hmem rfl, hquote⟩
  refine ⟨isValue_quoted (by decide) ?_, hbracket (fun d hd => (hcontent d hd).2.1) (by decide),
    hbracket (fun d hd => (hcontent d hd).2.2) (by decide), ?_, ?_⟩
  · intro hmem
    exact absurd (hcontent _ hmem).1 (by decide)
  · intro part hpart hne rest
    -- Each part of the text that reaches its end holds the closing quote.
    have hlast : '"' ∈ part := by
      have heq : part.getLast hne = '"' := by
        rw [hpart.getLast hne, List.getLast_cons (by simp), List.getLast_concat]
      rw [← heq]
      exact List.getLast_mem hne
    exact heading?_eq_none_of_quote (by decide) (List.mem_append_left rest hlast)
  · exact fun rest => after?_cons_eq_none (by decide) _ _

/-! ## Texts that open no declaration -/

theorem OpensNone.left {front back : Chars} (hnone : OpensNone (front ++ back)) :
    OpensNone front := by
  rintro start later rfl before hbefore
  exact hnone start (later ++ back) (by simp) before hbefore

theorem OpensNone.append_of_not_mem {front back : Chars} (hnone : OpensNone front)
    (hback : '(' ∉ back) : OpensNone (front ++ back) := by
  intro start later heq before hbefore
  rcases append_eq_append_cons_iff.1 heq with ⟨others, hfront, _⟩ | ⟨others, _, hlater⟩
  · exact hnone start others hfront before hbefore
  · rw [hlater] at hback
    exact absurd (List.mem_append_right others List.mem_cons_self) hback

/-- A new text opens no declaration where no heading goes across its front. -/
theorem OpensNone.insert {front text back : Chars} (hfront : OpensNone front)
    (htext : IsNewText text) (hback : OpensNone back)
    (hcross : ∀ part, part <:+ front → ∀ rest, heading? (part ++ (text ++ rest)) = none) :
    OpensNone (front ++ (text ++ back)) := by
  have hleft := hfront.append_of_not_mem htext.notOpen
  intro start later heq before hbefore
  rw [← List.append_assoc] at heq
  rcases append_eq_append_cons_iff.1 heq with ⟨others, hstart, _⟩ | ⟨others, rfl, hlater⟩
  · exact hleft start others hstart before hbefore
  · rw [List.append_assoc] at hbefore
    rcases suffix_append_iff.1 hbefore with hbefore | ⟨part, hpart, rfl⟩
    · rcases suffix_append_iff.1 hbefore with hbefore | ⟨part, hpart, rfl⟩
      · exact hback others later hlater before hbefore
      · by_cases hne : part = []
        · rw [hne, List.nil_append]
          exact hback others later hlater others List.suffix_rfl
        · exact htext.noHeading part hpart hne others
    · exact hcross part hpart others

theorem heading?_append_blank {front : Chars} (hfront : ∀ c ∈ front, isBlank c = true)
    (rest : Chars) : heading? (front ++ rest) = heading? rest := by
  have htrim : trimLeft (front ++ rest) = trimLeft rest := List.dropWhile_append_of_pos hfront
  rw [heading?, htrim, heading?]

/-- No heading goes across an equality sign into a new text. -/
theorem IsNewText.heading?_equal {text : Chars} (htext : IsNewText text) (front rest : Chars) :
    heading? (front ++ '=' :: (text ++ rest)) = none := by
  cases hkind : heading? (front ++ '=' :: (text ++ rest)) with
  | none => rfl
  | some kind =>
      exfalso
      obtain ⟨space, back, heq, hspace, hinput, hback⟩ := heading?_eq_some hkind
      have hspaceEqual : '=' ∉ space := fun hmem => absurd (hspace _ hmem) (by decide)
      have hbackEqual : '=' ∉ back := fun hmem => absurd (hback _ hmem) (by decide)
      have hrest : back ≠ text ++ rest := by
        rintro rfl
        rw [trimLeft_eq_self (htext.head_append rest), htext.notInput rest] at hinput
        exact nomatch hinput
      rcases append_eq_append_cons_iff.1 heq with ⟨others, _, hlater⟩ | ⟨others, hothers, hlater⟩
      · rw [hlater] at hbackEqual
        exact hbackEqual (List.mem_append_right others List.mem_cons_self)
      · cases others with
        | nil =>
            injection hlater with _ hlater
            exact hrest hlater.symm
        | cons c others =>
            injection hlater with hc
            rw [hothers, ← hc] at hspaceEqual
            exact hspaceEqual (List.mem_append_right front List.mem_cons_self)

/-- A new text behind white space at the front opens no declaration. -/
theorem IsNewText.opensNone_first {lead text back : Chars} (htext : IsNewText text)
    (hlead : ∀ c ∈ lead, isBlank c = true) (hback : OpensNone back) :
    OpensNone (lead ++ (text ++ back)) := by
  have hnone : OpensNone lead := by
    rintro start later rfl
    exact absurd (hlead '(' (List.mem_append_right start List.mem_cons_self)) (by decide)
  apply hnone.insert htext hback
  intro part hpart rest
  rw [heading?_append_blank fun c hc => hlead c (hpart.subset hc)]
  exact htext.noHeading text List.suffix_rfl htext.nonempty rest

/-- A new text behind the keyword opens no declaration. -/
theorem IsNewText.opensNone_keyword {front text back : Chars} (htext : IsNewText text)
    (hfront : OpensNone front) (hback : OpensNone back) :
    OpensNone (front ++ ("defval=".toList ++ text ++ back)) := by
  have hsplit : front ++ ("defval=".toList ++ text ++ back) =
      ((front ++ "defval".toList) ++ ['=']) ++ (text ++ back) := by simp
  have hkey := hfront.append_of_not_mem (show '(' ∉ "defval".toList by decide)
  rw [hsplit]
  apply (hkey.append_of_not_mem (show '(' ∉ ['='] by decide)).insert htext hback
  intro part hpart rest
  by_cases hne : part = []
  · rw [hne]
    exact htext.noHeading text List.suffix_rfl htext.nonempty rest
  · -- The part ends with the equality sign of the keyword.
    obtain ⟨others, rfl⟩ : ∃ others, part = others ++ ['='] := by
      have hlast : part.getLast hne = '=' := by
        rw [hpart.getLast hne, List.getLast_concat]
      refine ⟨part.dropLast, ?_⟩
      rw [← hlast, List.dropLast_concat_getLast]
    rw [List.append_assoc, List.singleton_append]
    exact htext.heading?_equal others rest

/-! ## The keyword of the default -/

/-- How the writer finds the keyword of the default. -/
def keyOf : InputKind → Literal
  | .bool => afterFolded? "defval"
  | _ => after? "defval".toList

theorem keyOf_append (kind : InputKind) (rest : Chars) :
    keyOf kind ("defval".toList ++ rest) = some rest := by
  cases kind <;> rfl

theorem isPrefix_of_keyOf {kind : InputKind} {text rest : Chars}
    (hkey : keyOf kind text = some rest) : "defval".toList <+: text.map foldCase := by
  have hexact (hafter : after? "defval".toList text = some rest) :
      "defval".toList <+: text.map foldCase := by
    rw [after?_eq_some_iff.1 hafter, List.map_append]
    exact List.prefix_append _ _
  cases kind with
  | bool =>
      rw [keyOf, afterFolded?] at hkey
      split at hkey
      · next hfolded => exact List.isPrefixOf_iff_prefix.1 hfolded
      · cases hkey
  | int | float | string | source => exact hexact hkey

theorem contains_iff {part text : Chars} : contains part text = true ↔ part <:+: text := by
  induction text with
  | nil => rw [contains, List.isEmpty_iff, List.infix_nil]
  | cons c rest ih =>
      rw [contains, Bool.or_eq_true, ih, List.infix_cons_iff, List.isPrefixOf_iff_prefix]

/-- A text that does not mention the keyword of the default in any case. -/
def NoDefault (text : Chars) : Prop := Script.mentions "defval" text = false

instance (text : Chars) : Decidable (NoDefault text) := inferInstanceAs (Decidable (_ = _))

theorem NoDefault.not_isInfix {text : Chars} (htext : NoDefault text) :
    ¬ "defval".toList <:+: text.map foldCase := by
  intro hword
  have hmentions : Script.mentions "defval" text = true := contains_iff.2 hword
  rw [htext] at hmentions
  exact nomatch hmentions

theorem NoDefault.of_isInfix {part text : Chars} (htext : NoDefault text) (hpart : part <:+: text) :
    NoDefault part := by
  have hnot : ¬ contains "defval".toList (part.map foldCase) = true := by
    rw [contains_iff]
    exact fun hword => htext.not_isInfix (hword.trans (hpart.map foldCase))
  exact Bool.eq_false_iff.2 hnot

theorem NoDefault.keyOf_eq_none {text : Chars} (htext : NoDefault text) (kind : InputKind) :
    keyOf kind text = none := by
  cases hkey : keyOf kind text with
  | none => rfl
  | some rest => exact absurd (isPrefix_of_keyOf hkey).isInfix htext.not_isInfix

theorem NoDefault.noDefaultKey {text : Chars} (htext : NoDefault text) :
    NoDefaultKey (arguments text) := by
  intro part hpart value hkey
  have hword : part.takeWhile isWord = "defval".toList := by
    rw [keyword?] at hkey
    split at hkey
    · split at hkey
      · cases hkey
      · injection hkey with hkey
        injection hkey with hkey
        rw [← hkey, String.toList_ofList]
    · cases hkey
  have hstart : "defval".toList <+: part := by
    rw [← hword]
    exact List.takeWhile_prefix _
  exact htext.not_isInfix ((hstart.isInfix.trans (infix_of_mem_argumentsFrom hpart)).map foldCase)

/-! ## The writer -/

section Writer

variable {key? literal : Literal} {new : Chars}

/-- What follows a literal behind the keyword and an equality sign. -/
def keyed? (key? literal : Literal) : Literal := fun text => do
  let equals ← after? ['='] (trimLeft (← key? text))
  literal (trimLeft equals)

theorem keyed?_keyword {kind : InputKind} {space rest : Chars}
    (hspace : ∀ c ∈ space, isBlank c = true) :
    keyed? (keyOf kind) literal ("defval".toList ++ (space ++ '=' :: rest)) =
      literal (trimLeft rest) := by
  have hafter : after? ['='] ('=' :: rest) = some rest := after?_eq_some_iff.2 rfl
  rw [keyed?, keyOf_append, Option.bind_eq_bind, Option.bind_some,
    trimLeft_blank_cons hspace (by decide), hafter]
  rfl

theorem replaceKeyword?_cons (c : Char) (rest : Chars) :
    replaceKeyword? key? literal new (c :: rest) =
      match keyed? key? literal (c :: rest) with
      | some others => some ("defval=".toList ++ new ++ others)
      | none => (replaceKeyword? key? literal new rest).map (c :: ·) := rfl

theorem replaceKeyword?_eq_none_iff {text : Chars} : replaceKeyword? key? literal new text = none ↔
    ∀ part, part <:+ text → part ≠ [] → keyed? key? literal part = none := by
  induction text with
  | nil => exact ⟨fun _ part hpart hne => absurd (List.suffix_nil.1 hpart) hne, fun _ => rfl⟩
  | cons c rest ih =>
      rw [replaceKeyword?_cons]
      constructor
      · intro hnone part hpart hne
        split at hnone
        · cases hnone
        · next hhere =>
            rcases List.suffix_cons_iff.1 hpart with rfl | hpart
            · exact hhere
            · exact ih.1 (Option.map_eq_none_iff.1 hnone) part hpart hne
      · intro hparts
        rw [hparts _ List.suffix_rfl (List.cons_ne_nil _ _)]
        exact Option.map_eq_none_iff.2
          (ih.2 fun part hpart => hparts part (hpart.trans (List.suffix_cons c rest)))

theorem replaceKeyword?_eq_none {text : Chars} (htext : ∀ part, part <:+ text → key? part = none) :
    replaceKeyword? key? literal new text = none := by
  rw [replaceKeyword?_eq_none_iff]
  intro part hpart _
  rw [keyed?, htext part hpart]
  rfl

theorem replaceKeyword?_append {front rest later : Chars}
    (hfront : ∀ part, part <:+ front → part ≠ [] → keyed? key? literal (part ++ rest) = none)
    (hne : rest ≠ []) (hkeyed : keyed? key? literal rest = some later) :
    replaceKeyword? key? literal new (front ++ rest) =
      some (front ++ ("defval=".toList ++ new ++ later)) := by
  induction front with
  | nil =>
      obtain ⟨c, rest, rfl⟩ := List.exists_cons_of_ne_nil hne
      rw [List.nil_append, replaceKeyword?_cons, hkeyed]
      rfl
  | cons c front ih =>
      rw [List.cons_append, replaceKeyword?_cons, ← List.cons_append,
        hfront _ List.suffix_rfl (List.cons_ne_nil _ _),
        ih fun part hpart => hfront part (hpart.trans (List.suffix_cons c front))]
      rfl

/-- The writer exchanges a literal in the first position if the keyword is not there. -/
theorem updateArguments_first {lead text rest : Chars}
    (hkey : ∀ part, part <:+ lead ++ (text ++ rest) → key? part = none)
    (hlead : ∀ c ∈ lead, isBlank c = true)
    (htext : ∀ c, (text ++ rest).head? = some c → isBlank c = false)
    (hliteral : literal (text ++ rest) = some rest) :
    updateArguments key? literal new (lead ++ (text ++ rest)) = lead ++ (new ++ rest) := by
  have htrim : trimLeft (lead ++ (text ++ rest)) = text ++ rest := dropWhile_blank hlead htext
  have htake : (lead ++ (text ++ rest)).takeWhile isBlank = lead :=
    takeWhile_append_of_stop hlead htext
  rw [updateArguments, replaceKeyword?_eq_none hkey, Option.getD_none, if_pos rfl, replaceFirst?,
    htrim, hliteral, htake, Option.map_some, Option.getD_some, List.append_assoc]

/-- The writer exchanges the literal behind the keyword. -/
theorem updateArguments_keyword {arguments updated : Chars}
    (hupdated : replaceKeyword? key? literal new arguments = some updated)
    (hfirst : literal (trimLeft arguments) = none) :
    updateArguments key? literal new arguments = updated := by
  rw [updateArguments, hupdated, Option.getD_some]
  split
  · next heq => rw [replaceFirst?, hfirst, Option.map_none, Option.getD_none, heq]
  · rfl

end Writer

/-! ## Plain defaults -/

/-- Arguments whose default is a plain literal: the first argument, where the keyword is not there;
or an argument behind the keyword, where the keyword is not there again and the arguments do not
begin with a literal. -/
inductive PlainDefault (kind : InputKind) : Chars → Prop where
  | first {lead literal space back : Chars} (hlead : ∀ c ∈ lead, isBlank c = true)
      (hliteral : IsLiteral kind literal) (hspace : ∀ c ∈ space, isBlank c = true)
      (hback : EndsArgument back) (hkey : NoDefault (lead ++ (literal ++ (space ++ back)))) :
      PlainDefault kind (lead ++ (literal ++ (space ++ back)))
  | keyword {front lead space1 space2 literal space back : Chars} (hfront : Closes front)
      (hlead : ∀ c ∈ lead, isBlank c = true) (hbefore : NoDefault (front ++ lead))
      (hspace1 : ∀ c ∈ space1, isBlank c = true) (hspace2 : ∀ c ∈ space2, isBlank c = true)
      (hliteral : IsLiteral kind literal) (hspace : ∀ c ∈ space, isBlank c = true)
      (hback : EndsArgument back) (hafter : NoDefault back)
      (hfirst : literalOf kind (trimLeft (front ++ lead ++ ("defval".toList ++
        (space1 ++ '=' :: (space2 ++ (literal ++ (space ++ back))))))) = none) :
      PlainDefault kind (front ++ lead ++ ("defval".toList ++
        (space1 ++ '=' :: (space2 ++ (literal ++ (space ++ back))))))

/-- What the arguments of a declaration become with a new default. -/
structure Renewed (new arguments updated : Chars) : Prop where
  closed : ')' ∉ arguments → ')' ∉ updated
  opensNone : OpensNone arguments → OpensNone updated
  exchanged : ∃ old, Exchanged "defval" old new (argumentRecord arguments) (argumentRecord updated)

section Reader

variable {lead front text space space1 space2 back : Chars}

theorem outside_blank (hspace : ∀ c ∈ space, isBlank c = true) : Outside (· ≠ ',') space := by
  apply Outside.of_forall
  intro c hc
  have hothers : ∀ c ∈ ['"', '\'', '(', '[', ')', ']', ','], isBlank c = false := by decide
  have hnot : c ∉ ['"', '\'', '(', '[', ')', ']', ','] := by
    intro hmem
    have hblank := hspace c hc
    rw [hothers c hmem] at hblank
    exact nomatch hblank
  refine ⟨.of_not_mem fun hmem => hnot ?_, ?_⟩
  · exact List.mem_append_left [','] hmem
  · rintro rfl
    exact hnot (by decide)

theorem arguments_first (hlead : ∀ c ∈ lead, isBlank c = true) (htext : IsValue text)
    (hspace : ∀ c ∈ space, isBlank c = true) (hback : EndsArgument back) :
    arguments (lead ++ (text ++ (space ++ back))) = text :: laterArguments back := by
  have htrim : trim (lead ++ (text ++ space)) = text :=
    trim_padded hlead hspace htext.trimmed htext.nonempty
  have houtside : Outside (· ≠ ',') (lead ++ (text ++ space)) :=
    (outside_blank hlead).append (htext.outside.append (outside_blank hspace))
  have hne : trim (lead ++ (text ++ space)) ≠ [] := by
    rw [htrim]
    exact htext.nonempty
  have hclosed : Closes [] := rfl
  have harguments := arguments_append hclosed houtside hne hback
  rw [htrim] at harguments
  simpa [passed] using harguments

theorem arguments_keyword (hfront : Closes front) (hlead : ∀ c ∈ lead, isBlank c = true)
    (hspace1 : ∀ c ∈ space1, isBlank c = true) (hspace2 : ∀ c ∈ space2, isBlank c = true)
    (htext : IsValue text) (hspace : ∀ c ∈ space, isBlank c = true) (hback : EndsArgument back) :
    arguments (front ++ lead ++ ("defval".toList ++
        (space1 ++ '=' :: (space2 ++ (text ++ (space ++ back)))))) =
      (passed Nesting.start [] front).1 ++
        ("defval".toList ++ (space1 ++ '=' :: (space2 ++ text))) :: laterArguments back := by
  have htrimmed : IsTrimmed ("defval".toList ++ (space1 ++ '=' :: (space2 ++ text))) := by
    refine ⟨?_, ?_⟩
    · intro c hc
      injection hc with hc
      rw [← hc]
      decide
    · intro c hc
      have hsplit : "defval".toList ++ (space1 ++ '=' :: (space2 ++ text)) =
          ("defval".toList ++ space1 ++ '=' :: space2) ++ text := by simp
      rw [hsplit, List.getLast?_append_of_ne_nil _ htext.nonempty] at hc
      exact htext.trimmed.last c hc
  have hkey : "defval".toList ++ (space1 ++ '=' :: (space2 ++ text)) ≠ [] := List.cons_ne_nil _ _
  have htrim : trim (lead ++ ("defval".toList ++ (space1 ++ '=' :: (space2 ++ text)) ++ space)) =
      "defval".toList ++ (space1 ++ '=' :: (space2 ++ text)) :=
    trim_padded hlead hspace htrimmed hkey
  have houtside : Outside (· ≠ ',')
      (lead ++ ("defval".toList ++ (space1 ++ '=' :: (space2 ++ text)) ++ space)) := by
    refine (outside_blank hlead).append (.append (.append (.of_forall (by decide))
      ((outside_blank hspace1).append ?_)) (outside_blank hspace))
    exact .bare (by decide) (by decide) ((outside_blank hspace2).append htext.outside)
  have hne : trim (lead ++ ("defval".toList ++ (space1 ++ '=' :: (space2 ++ text)) ++ space)) ≠
      [] := by
    rw [htrim]
    exact hkey
  have harguments := arguments_append hfront houtside hne hback
  rw [htrim] at harguments
  simpa using harguments

end Reader

theorem Closes.getLast? {front : Chars} (hfront : Closes front) (hne : front ≠ []) :
    front.getLast? = some ',' := by
  have hlast : ∀ (front : Chars) (state : Nesting) (before : Chars), front ≠ [] →
      (passed state before front).2.2 = [] → front.getLast? = some ',' := by
    intro front
    induction front with
    | nil => exact fun _ _ hne _ => absurd rfl hne
    | cons c rest ih =>
        intro state before _ hopen
        by_cases hrest : rest = []
        · subst hrest
          rw [passed] at hopen
          split at hopen
          · next hcomma =>
              rw [Bool.and_eq_true, beq_iff_eq] at hcomma
              rw [hcomma.2]
              rfl
          · exact absurd hopen (List.cons_ne_nil _ _)
        · rw [List.getLast?_cons_of_ne_nil hrest]
          rw [passed] at hopen
          split at hopen
          · exact ih _ _ hrest hopen
          · exact ih _ _ hrest hopen
  exact hlast front _ _ hne (congrArg Prod.snd hfront)

/-- No character of the keyword stands directly before an argument. -/
theorem Closes.foldCase_not_mem {front lead : Chars} (hfront : Closes front)
    (hlead : ∀ c ∈ lead, isBlank c = true) {c : Char} (hc : (front ++ lead).getLast? = some c) :
    foldCase c ∉ "defval".toList := by
  by_cases hne : lead = []
  · rw [hne, List.append_nil] at hc
    have hfrontNe : front ≠ [] := by
      rintro rfl
      exact nomatch hc
    rw [hfront.getLast? hfrontNe] at hc
    injection hc with hc
    rw [← hc]
    decide
  · rw [List.getLast?_append_of_ne_nil _ hne] at hc
    intro hmem
    have hblank : isBlank c = false :=
      @not_isBlank_of_all (fun c => "defval".toList.contains (foldCase c)) (by decide) c
        (List.contains_iff_mem.2 hmem)
    rw [hlead c (List.mem_of_getLast? hc)] at hblank
    exact nomatch hblank

/-- No keyword begins in a text before it that does not mention it. -/
theorem keyOf_before {before : Chars} (hbefore : NoDefault before)
    (hlast : ∀ c, before.getLast? = some c → foldCase c ∉ "defval".toList) (kind : InputKind)
    {part : Chars} (hpart : part <:+ before) (hne : part ≠ []) (rest : Chars) :
    keyOf kind (part ++ rest) = none := by
  cases hkey : keyOf kind (part ++ rest) with
  | none => rfl
  | some others =>
      exfalso
      have hstart := isPrefix_of_keyOf hkey
      rw [List.map_append] at hstart
      have hnot := (hbefore.of_isInfix hpart.isInfix).not_isInfix
      rcases List.prefix_or_prefix_of_prefix hstart (List.prefix_append _ _) with hword | hword
      · exact hnot hword.isInfix
      · -- The keyword would hold the last character of the part.
        have hbeforeNe : before ≠ [] := by
          rintro rfl
          exact hne (List.suffix_nil.1 hpart)
        have hend : before.getLast? = some (part.getLast hne) := by
          rw [List.getLast?_eq_some_getLast hbeforeNe, hpart.getLast hne]
        have hfold : foldCase (part.getLast hne) ∈ part.map foldCase :=
          List.mem_map_of_mem (List.getLast_mem hne)
        exact hlast _ hend (hword.subset hfold)

theorem laterArguments_noDefaultKey {back : Chars} (hback : NoDefault back) :
    NoDefaultKey (laterArguments back) :=
  (hback.of_isInfix (List.tail_suffix back).isInfix).noDefaultKey

theorem endsLiteral_append {space back : Chars} (hspace : ∀ c ∈ space, isBlank c = true)
    (hback : EndsArgument back) : EndsLiteral (space ++ back) := by
  intro c hc
  cases space with
  | nil => exact .inr (hback c hc)
  | cons d space =>
      injection hc with hc
      rw [← hc]
      exact .inl (hspace d List.mem_cons_self)

section Exchange

variable {kind : InputKind} {lead front space1 space2 literal new space back : Chars}

theorem renewed_first (hlead : ∀ c ∈ lead, isBlank c = true) (hliteral : IsValue literal)
    (hnew : IsNewText new) (hspace : ∀ c ∈ space, isBlank c = true) (hback : EndsArgument back)
    (hafter : NoDefault back) :
    Renewed new (lead ++ (literal ++ (space ++ back))) (lead ++ (new ++ (space ++ back))) := by
  refine ⟨?_, ?_, literal, ?_⟩
  · simp only [List.mem_append, not_or]
    exact fun hclosed => ⟨hclosed.1, hnew.notClose, hclosed.2.2⟩
  · exact fun hnone => hnew.opensNone_first hlead hnone.of_append.of_append
  · rw [argumentRecord_eq, argumentRecord_eq, arguments_first hlead hliteral hspace hback,
      arguments_first hlead hnew.toIsValue hspace hback]
    exact recordOf_first hliteral.notKeyword hnew.notKeyword (laterArguments_noDefaultKey hafter)

theorem renewed_keyword (hfront : Closes front) (hlead : ∀ c ∈ lead, isBlank c = true)
    (hspace1 : ∀ c ∈ space1, isBlank c = true) (hspace2 : ∀ c ∈ space2, isBlank c = true)
    (hliteral : IsValue literal) (hnew : IsNewText new) (hspace : ∀ c ∈ space, isBlank c = true)
    (hback : EndsArgument back) (hafter : NoDefault back) :
    Renewed new
      (front ++ lead ++ ("defval".toList ++
        (space1 ++ '=' :: (space2 ++ (literal ++ (space ++ back))))))
      (front ++ lead ++ ("defval=".toList ++ new ++ (space ++ back))) := by
  refine ⟨?_, ?_, literal, ?_⟩
  · intro hclosed
    simp only [List.mem_append, List.mem_cons, not_or] at hclosed ⊢
    exact ⟨hclosed.1, ⟨by decide, hnew.notClose⟩, hclosed.2.2.2.2.2.2⟩
  · intro hnone
    have hsuffix : front ++ lead ++ ("defval".toList ++
        (space1 ++ '=' :: (space2 ++ (literal ++ (space ++ back))))) =
        (front ++ lead ++ "defval".toList ++ space1 ++ '=' :: (space2 ++ literal)) ++
          (space ++ back) := by simp
    refine hnew.opensNone_keyword hnone.left ?_
    rw [hsuffix] at hnone
    exact hnone.of_append
  · have hequal : "defval=".toList ++ new ++ (space ++ back) =
        "defval".toList ++ ([] ++ '=' :: ([] ++ (new ++ (space ++ back)))) := by simp
    have hempty : ∀ c ∈ ([] : Chars), isBlank c = true := nofun
    rw [argumentRecord_eq, argumentRecord_eq, hequal,
      arguments_keyword hfront hlead hspace1 hspace2 hliteral hspace hback,
      arguments_keyword hfront hlead hempty hempty hnew.toIsValue hspace hback]
    exact recordOf_keyword (keyword?_default hliteral hspace1 hspace2)
      (keyword?_default hnew.toIsValue hempty hempty) (laterArguments_noDefaultKey hafter)

end Exchange

/-- Where the default is a plain literal, the writer exchanges it for the new text. -/
theorem PlainDefault.update {kind : InputKind} {arguments new : Chars}
    (hplain : PlainDefault kind arguments) (hnew : IsNewText new) :
    Renewed new arguments (updateArguments (keyOf kind) (literalOf kind) new arguments) := by
  cases hplain with
  | @first lead literal space back hlead hliteral hspace hback hkey =>
      have hreads := hliteral.reads ((endsLiteral_append hspace hback).follows kind)
      have hnone : ∀ part, part <:+ lead ++ (literal ++ (space ++ back)) → keyOf kind part = none :=
        fun part hpart => (hkey.of_isInfix hpart.isInfix).keyOf_eq_none kind
      have hafter : NoDefault back := by
        apply hkey.of_isInfix
        rw [← List.append_assoc, ← List.append_assoc]
        exact (List.suffix_append _ _).isInfix
      rw [updateArguments_first hnone hlead (hliteral.isValue.head_append _) hreads]
      exact renewed_first hlead hliteral.isValue hnew hspace hback hafter
  | @keyword front lead space1 space2 literal space back hfront hlead hbefore hspace1 hspace2
      hliteral hspace hback hafter hfirst =>
      have htrim : trimLeft (space2 ++ (literal ++ (space ++ back))) = literal ++ (space ++ back) :=
        dropWhile_blank hspace2 (hliteral.isValue.head_append _)
      have hkeyed : keyed? (keyOf kind) (literalOf kind) ("defval".toList ++
          (space1 ++ '=' :: (space2 ++ (literal ++ (space ++ back))))) = some (space ++ back) := by
        rw [keyed?_keyword hspace1, htrim,
          hliteral.reads ((endsLiteral_append hspace hback).follows kind)]
      have hpart (part : Chars) (hpart : part <:+ front ++ lead) (hne : part ≠ []) :
          keyed? (keyOf kind) (literalOf kind) (part ++ ("defval".toList ++
            (space1 ++ '=' :: (space2 ++ (literal ++ (space ++ back)))))) = none := by
        rw [keyed?, keyOf_before hbefore (fun _ => hfront.foldCase_not_mem hlead) kind hpart hne]
        rfl
      have hreplace : replaceKeyword? (keyOf kind) (literalOf kind) new _ = some _ :=
        replaceKeyword?_append hpart (List.append_ne_nil_of_left_ne_nil (by decide) _) hkeyed
      rw [updateArguments_keyword hreplace hfirst]
      exact renewed_keyword hfront hlead hspace1 hspace2 hliteral.isValue hnew hspace hback hafter

end Backtest.Input
