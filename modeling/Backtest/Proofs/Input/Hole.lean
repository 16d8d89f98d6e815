import Backtest.Proofs.Input.Default

/-!
# The place of a default

The writer puts a new default into a *hole* of the arguments: behind the keyword, or at the front.
Where the arguments do not give the default in both places (`OneDefault`), the hole does not depend
on the new text (`Hole.update`), and a text that the writer can find again leaves the hole where it
is (`Hole.renew`).  So a second default takes the place of the first one (`update_update`).
-/

namespace Backtest.Input

open Text Decimal Backtest.Expr

variable {kind : InputKind}

/-! ## The first letter of the keyword -/

theorem eq_of_foldCase {c : Char} (hc : foldCase c = 'd') : c = 'd' ∨ c = 'D' := by
  have hascii : ∀ code < 128, foldCase (Char.ofNat code) = 'd' →
      Char.ofNat code = 'd' ∨ Char.ofNat code = 'D' := by decide
  by_cases hcode : c.toNat < 128
  · have hletter := hascii c.toNat hcode
    rw [Char.ofNat_toNat] at hletter
    exact hletter hc
  · have hlower : c.toLower = 'd' := by
      unfold foldCase at hc
      split at hc
      · exact absurd hc (by decide)
      · split at hc
        · exact absurd hc (by decide)
        · split at hc
          · exact absurd hc (by decide)
          · exact hc
    delta Char.toLower at hlower
    split at hlower
    · next hupper =>
        have hle : c.toNat ≤ 90 := hupper.2
        omega
    · exact .inl hlower

/-- A text that begins with the first letter of the keyword. -/
def StartsKey (text : Chars) : Prop := ∃ c rest, text = c :: rest ∧ (c = 'd' ∨ c = 'D')

theorem startsKey_of_keyOf {text rest : Chars} (hkey : keyOf kind text = some rest) :
    StartsKey text := by
  obtain ⟨others, hothers⟩ := isPrefix_of_keyOf hkey
  cases text with
  | nil => exact nomatch hothers
  | cons c text =>
      injection hothers with hc
      exact ⟨c, text, rfl, eq_of_foldCase hc.symm⟩

theorem keyOf_eq_none {c : Char} (hc : foldCase c ≠ 'd') (rest : Chars) :
    keyOf kind (c :: rest) = none := by
  cases hkey : keyOf kind (c :: rest) with
  | none => rfl
  | some others =>
      obtain ⟨d, later, htext, hd⟩ := startsKey_of_keyOf hkey
      injection htext with hcd
      rw [hcd] at hc
      rcases hd with rfl | rfl <;> exact absurd (by decide) hc

theorem keyed?_eq_none {text : Chars} (hkey : keyOf kind text = none) (literal : Literal) :
    keyed? (keyOf kind) literal text = none := by
  rw [keyed?, hkey]
  rfl

/-! ## What is decided before a mark -/

section Mark

variable {front rest : Chars} {c : Char}

theorem isPrefixOf_append_cons {start : Chars} {fold : Char → Char}
    (hc : fold c ∉ start.drop front.length) (rest : Chars) :
    start.isPrefixOf ((front ++ c :: rest).map fold) = start.isPrefixOf (front.map fold) := by
  rw [Bool.eq_iff_iff, List.isPrefixOf_iff_prefix, List.isPrefixOf_iff_prefix, List.map_append]
  constructor
  · intro hstart
    rcases List.prefix_or_prefix_of_prefix hstart (List.prefix_append _ _) with hword | hword
    · exact hword
    · obtain ⟨others, rfl⟩ := hword
      rw [List.prefix_append_right_inj] at hstart
      have hlength : (front.map fold).length = front.length := List.length_map fold
      rw [← hlength, List.drop_left] at hc
      cases others with
      | nil => exact ⟨[], by simp⟩
      | cons d others =>
          obtain ⟨later, hlater⟩ := hstart
          injection hlater with hd
          rw [hd] at hc
          exact absurd List.mem_cons_self hc
  · exact fun hstart => hstart.trans (List.prefix_append _ _)

/-- A text that is taken off the front ends before a character that it does not go over. -/
theorem takeMapped_append_cons {start : Chars} {fold : Char → Char}
    (hc : fold c ∉ start.drop front.length) (rest : Chars) :
    (if start.isPrefixOf ((front ++ c :: rest).map fold)
      then some ((front ++ c :: rest).drop start.length) else none) =
    (if start.isPrefixOf (front.map fold) then some (front.drop start.length) else none).map
      (· ++ c :: rest) := by
  rw [isPrefixOf_append_cons hc]
  split
  · next hstart =>
      have hlength := (List.isPrefixOf_iff_prefix.1 hstart).length_le
      rw [List.length_map] at hlength
      rw [List.drop_append_of_le_length hlength, Option.map_some]
  · rfl

theorem afterFolded?_append_cons {word : String} (hc : foldCase c ∉ word.toList.drop front.length)
    (rest : Chars) : afterFolded? word (front ++ c :: rest) =
      (afterFolded? word front).map (· ++ c :: rest) := by
  rw [afterFolded?, afterFolded?, ← String.length_toList]
  exact takeMapped_append_cons hc rest

/-- Where the keyword begins before a character, it ends before it. -/
theorem keyOf_append_cons (hc : c ∉ "defval".toList.drop front.length)
    (hfold : foldCase c ∉ "defval".toList.drop front.length) (rest : Chars) :
    keyOf kind (front ++ c :: rest) = (keyOf kind front).map (· ++ c :: rest) := by
  have hexact : after? "defval".toList (front ++ c :: rest) =
      (after? "defval".toList front).map (· ++ c :: rest) := by
    have htake := @takeMapped_append_cons front c "defval".toList id hc rest
    rw [List.map_id, List.map_id] at htake
    exact htake
  cases kind with
  | bool => exact afterFolded?_append_cons hfold rest
  | int | float | string | source => exact hexact

theorem takeWhile_append_cons {p : Char → Bool} (hc : p c = false) (front rest : Chars) :
    (front ++ c :: rest).takeWhile p = front.takeWhile p := by
  induction front with
  | nil => rw [List.nil_append, List.takeWhile_cons, hc, if_neg Bool.false_ne_true]; rfl
  | cons d front ih => rw [List.cons_append, List.takeWhile_cons, List.takeWhile_cons, ih]

theorem dropWhile_append_cons {p : Char → Bool} (hc : p c = false) (front rest : Chars) :
    (front ++ c :: rest).dropWhile p = front.dropWhile p ++ c :: rest := by
  induction front with
  | nil => rw [List.nil_append, List.dropWhile_cons, hc, if_neg Bool.false_ne_true]; rfl
  | cons d front ih =>
      rw [List.cons_append, List.dropWhile_cons, List.dropWhile_cons, ih]
      split <;> rfl

/-- The digits and points at the front of a text, without a sign before them. -/
theorem numeralLiteral_unsigned {text : Chars} (htext : text.head? ≠ some '-') :
    numeralLiteral text = if (text.takeWhile fun c => isDigit c || c == '.').isEmpty then none
      else some (text.dropWhile fun c => isDigit c || c == '.') := by
  rw [numeralLiteral]
  rintro others rfl
  exact htext rfl

theorem numeralLiteral_append_cons (hpart : (isDigit c || c == '.') = false) (hsign : c ≠ '-')
    (rest : Chars) : numeralLiteral (front ++ c :: rest) =
      (numeralLiteral front).map (· ++ c :: rest) := by
  have hbody (body : Chars) :
      (if ((body ++ c :: rest).takeWhile fun c => isDigit c || c == '.').isEmpty then none
        else some ((body ++ c :: rest).dropWhile fun c => isDigit c || c == '.')) =
      (if (body.takeWhile fun c => isDigit c || c == '.').isEmpty then none
        else some (body.dropWhile fun c => isDigit c || c == '.')).map (· ++ c :: rest) := by
    rw [takeWhile_append_cons hpart, dropWhile_append_cons hpart]
    split <;> rfl
  by_cases hfront : front.head? = some '-'
  · obtain ⟨others, rfl⟩ := List.head?_eq_some_iff.1 hfront
    exact hbody others
  · have hhead : (front ++ c :: rest).head? ≠ some '-' := by
      cases front with
      | nil =>
          intro heq
          injection heq with heq
          exact hsign heq
      | cons d front => exact hfront
    rw [numeralLiteral_unsigned hhead, numeralLiteral_unsigned hfront, hbody]

theorem truthLiteral_append_cons (hc : ∀ word ∈ ["true", "false"], foldCase c ∉ word.toList)
    (rest : Chars) : truthLiteral (front ++ c :: rest) =
      (truthLiteral front).map (· ++ c :: rest) := by
  have hdrop (word : String) (hword : word ∈ ["true", "false"]) :
      foldCase c ∉ word.toList.drop front.length :=
    fun hmem => hc word hword (List.mem_of_mem_drop hmem)
  rw [truthLiteral, truthLiteral, afterFolded?_append_cons (hdrop "true" (by decide)),
    afterFolded?_append_cons (hdrop "false" (by decide))]
  cases afterFolded? "true" front <;> rfl

theorem quotedLiteral_of_not_quote (hc : isQuote c = false) (rest : Chars) :
    quotedLiteral (c :: rest) = none := by
  rw [quotedLiteral, hc, if_neg Bool.false_ne_true]

theorem quotedLiteral_ne_none (hc : isQuote c = true) (hrest : ∃ d ∈ rest, isQuote d = true) :
    quotedLiteral (c :: rest) ≠ none := by
  obtain ⟨d, hd, hquote⟩ := hrest
  rw [quotedLiteral, if_pos hc]
  split
  · exact Option.some_ne_none _
  · next hdrop =>
      have hnot := List.dropWhile_eq_nil_iff.1 hdrop d hd
      rw [hquote] at hnot
      exact absurd hnot (by decide)

end Mark

/-! ## Literals before the keyword -/

/-- Whether a literal stands before a keyword is decided before it, but for a closing quote. -/
theorem literalOf_append_key {text other : Chars} (htext : StartsKey text)
    (hother : StartsKey other) (hquote : kind = .string → ∃ c ∈ text, isQuote c = true)
    {front : Chars} (hnone : literalOf kind (trimLeft (front ++ text)) = none) :
    literalOf kind (trimLeft (front ++ other)) = none := by
  obtain ⟨c, rest, rfl, hc⟩ := htext
  obtain ⟨d, later, rfl, hd⟩ := hother
  have hmark {c : Char} (hc : c = 'd' ∨ c = 'D') : isBlank c = false ∧
      (isDigit c || c == '.') = false ∧ c ≠ '-' ∧ isQuote c = false ∧
      ∀ word ∈ ["true", "false"], foldCase c ∉ word.toList := by
    rcases hc with rfl | rfl <;> decide
  obtain ⟨hcBlank, hcPart, hcSign, _, hcFold⟩ := hmark hc
  obtain ⟨hdBlank, hdPart, hdSign, hdQuote, hdFold⟩ := hmark hd
  rw [trimLeft_append_cons hcBlank] at hnone
  rw [trimLeft_append_cons hdBlank]
  generalize trimLeft front = before at hnone ⊢
  cases kind with
  | int | float =>
      rw [literalOf, numeralLiteral_append_cons hcPart hcSign, Option.map_eq_none_iff] at hnone
      rw [literalOf, numeralLiteral_append_cons hdPart hdSign, hnone]
      rfl
  | bool =>
      rw [literalOf, truthLiteral_append_cons hcFold, Option.map_eq_none_iff] at hnone
      rw [literalOf, truthLiteral_append_cons hdFold, hnone]
      rfl
  | string =>
      cases before with
      | nil => exact quotedLiteral_of_not_quote hdQuote later
      | cons first before =>
          apply quotedLiteral_of_not_quote
          rw [Bool.eq_false_iff]
          intro hfirst
          obtain ⟨mark, hmem, hmark⟩ := hquote rfl
          exact quotedLiteral_ne_none hfirst ⟨mark, List.mem_append_right before hmem, hmark⟩ hnone
  | source => rfl

/-- What follows the keyword and an equality sign. -/
def assigned? (kind : InputKind) (text : Chars) : Option Chars := do
  after? ['='] (trimLeft (← keyOf kind text))

theorem keyed?_eq_bind (text : Chars) : keyed? (keyOf kind) (literalOf kind) text =
    (assigned? kind text).bind fun equals => literalOf kind (trimLeft equals) := by
  rw [keyed?, assigned?]
  cases keyOf kind text <;> rfl

/-- Where the keyword and the equality sign begin before a character, they end before it. -/
theorem assigned?_append_cons {front : Chars} {c : Char} (hblank : isBlank c = false)
    (hequal : c ≠ '=') (hc : c ∉ "defval".toList.drop front.length)
    (hfold : foldCase c ∉ "defval".toList.drop front.length) (rest : Chars) :
    assigned? kind (front ++ c :: rest) = (assigned? kind front).map (· ++ c :: rest) := by
  have hmark : c ∉ ['='] := fun hmem => hequal (List.mem_singleton.1 hmem)
  rw [assigned?, assigned?, keyOf_append_cons hc hfold]
  cases keyOf kind front with
  | none => rfl
  | some key =>
      rw [Option.map_some, Option.bind_eq_bind, Option.bind_some, trimLeft_append_cons hblank,
        after?_append_cons hmark]
      rfl

/-- Whether a default behind the keyword begins before another keyword is decided before it. -/
theorem keyed?_append_key {text other : Chars} (htext : StartsKey text) (hother : StartsKey other)
    (hquote : kind = .string → ∃ c ∈ text, isQuote c = true) {front : Chars} (hne : front ≠ [])
    (hnone : keyed? (keyOf kind) (literalOf kind) (front ++ text) = none) :
    keyed? (keyOf kind) (literalOf kind) (front ++ other) = none := by
  have hassigned {text : Chars} (htext : StartsKey text) : assigned? kind (front ++ text) =
      (assigned? kind front).map (· ++ text) := by
    obtain ⟨c, rest, rfl, hc⟩ := htext
    obtain ⟨first, front, rfl⟩ := List.exists_cons_of_ne_nil hne
    have hmark : isBlank c = false ∧ c ≠ '=' ∧ c ∉ "defval".toList.drop 1 ∧
        foldCase c ∉ "defval".toList.drop 1 := by
      rcases hc with rfl | rfl <;> decide
    have hdrop {d : Char} (hd : d ∉ "defval".toList.drop 1) :
        d ∉ "defval".toList.drop (first :: front).length := by
      intro hmem
      rw [List.length_cons, Nat.add_comm, ← List.drop_drop] at hmem
      exact hd (List.mem_of_mem_drop hmem)
    exact assigned?_append_cons hmark.1 hmark.2.1 (hdrop hmark.2.2.1) (hdrop hmark.2.2.2) rest
  rw [keyed?_eq_bind, hassigned htext] at hnone
  rw [keyed?_eq_bind, hassigned hother]
  cases hfront : assigned? kind front with
  | none => rfl
  | some equals =>
      rw [hfront] at hnone
      exact literalOf_append_key htext hother hquote hnone

/-! ## Holes -/

theorem startsKey_default (rest : Chars) : StartsKey ("defval=".toList ++ rest) :=
  ⟨'d', "efval=".toList ++ rest, rfl, .inl rfl⟩

theorem startsKey_of_keyed? {text rest : Chars}
    (hkeyed : keyed? (keyOf kind) (literalOf kind) text = some rest) : StartsKey text := by
  cases hkey : keyOf kind text with
  | none =>
      rw [keyed?_eq_none hkey] at hkeyed
      exact nomatch hkeyed
  | some key => exact startsKey_of_keyOf hkey

theorem exists_body_of_numeralLiteral {text rest : Chars}
    (hliteral : numeralLiteral text = some rest) :
    ∃ body, body <:+ text ∧ rest = body.dropWhile fun c => isDigit c || c == '.' := by
  have hbody {body : Chars} (hsome : (if (body.takeWhile fun c => isDigit c || c == '.').isEmpty
      then none else some (body.dropWhile fun c => isDigit c || c == '.')) = some rest) :
      rest = body.dropWhile fun c => isDigit c || c == '.' := by
    split at hsome
    · exact nomatch hsome
    · injection hsome with hsome
      exact hsome.symm
  by_cases htext : text.head? = some '-'
  · obtain ⟨others, rfl⟩ := List.head?_eq_some_iff.1 htext
    exact ⟨others, List.suffix_cons _ _, hbody hliteral⟩
  · rw [numeralLiteral_unsigned htext] at hliteral
    exact ⟨text, List.suffix_rfl, hbody hliteral⟩

/-- What follows a literal stands at the end of the text. -/
theorem isSuffix_of_literalOf {text rest : Chars} (hliteral : literalOf kind text = some rest) :
    rest <:+ text := by
  have hfolded {word : String} {rest : Chars} (hliteral : afterFolded? word text = some rest) :
      rest <:+ text := by
    unfold afterFolded? at hliteral
    split at hliteral
    · injection hliteral with hrest
      rw [← hrest]
      exact List.drop_suffix _ _
    · exact nomatch hliteral
  cases kind with
  | int | float =>
      obtain ⟨body, hbody, rfl⟩ := exists_body_of_numeralLiteral hliteral
      exact (List.dropWhile_suffix _).trans hbody
  | bool =>
      rw [literalOf, truthLiteral] at hliteral
      cases htrue : afterFolded? "true" text with
      | some others =>
          rw [htrue] at hliteral
          injection hliteral with hrest
          rw [← hrest]
          exact hfolded htrue
      | none =>
          rw [htrue] at hliteral
          exact hfolded hliteral
  | string =>
      rw [literalOf] at hliteral
      unfold quotedLiteral at hliteral
      split at hliteral
      · next mark others =>
          split at hliteral
          · split at hliteral
            · next hdrop =>
                injection hliteral with hrest
                have hsuffix : others.dropWhile (fun c => !isQuote c) <:+ others :=
                  List.dropWhile_suffix _
                rw [hdrop, hrest] at hsuffix
                exact ((List.suffix_cons _ _).trans hsuffix).trans (List.suffix_cons _ _)
            · exact nomatch hliteral
          · exact nomatch hliteral
      · exact nomatch hliteral
  | source => exact nomatch hliteral

theorem isSuffix_of_assigned? {text rest : Chars} (hassigned : assigned? kind text = some rest) :
    rest <:+ text := by
  have hkey {rest : Chars} (hkey : keyOf kind text = some rest) : rest <:+ text := by
    have hexact (hafter : after? "defval".toList text = some rest) : rest <:+ text := by
      rw [after?_eq_some_iff.1 hafter]
      exact List.suffix_append _ _
    cases kind with
    | bool =>
        rw [keyOf, afterFolded?] at hkey
        split at hkey
        · injection hkey with hrest
          rw [← hrest]
          exact List.drop_suffix _ _
        · cases hkey
    | int | float | string | source => exact hexact hkey
  obtain ⟨key, hfound, hequal⟩ := Option.bind_eq_some_iff.1 hassigned
  refine List.IsSuffix.trans ?_ ((trimLeft_isSuffix key).trans (hkey hfound))
  rw [after?_eq_some_iff.1 hequal]
  exact List.suffix_append _ _

theorem isSuffix_of_keyed? {text rest : Chars}
    (hkeyed : keyed? (keyOf kind) (literalOf kind) text = some rest) : rest <:+ text := by
  rw [keyed?_eq_bind] at hkeyed
  obtain ⟨equals, hassigned, hliteral⟩ := Option.bind_eq_some_iff.1 hkeyed
  exact ((isSuffix_of_literalOf hliteral).trans (trimLeft_isSuffix equals)).trans
    (isSuffix_of_assigned? hassigned)

/-- A text behind the keyword stands between quotes. -/
theorem exists_quote_of_keyed? {text rest : Chars}
    (hkeyed : keyed? (keyOf kind) (literalOf kind) text = some rest) (hkind : kind = .string) :
    ∃ c ∈ text, isQuote c = true := by
  subst hkind
  rw [keyed?_eq_bind] at hkeyed
  obtain ⟨equals, hassigned, hliteral⟩ := Option.bind_eq_some_iff.1 hkeyed
  cases htrim : trimLeft equals with
  | nil =>
      rw [htrim] at hliteral
      exact nomatch hliteral
  | cons c others =>
      have hc : c ∈ trimLeft equals := by
        rw [htrim]
        exact List.mem_cons_self
      refine ⟨c, (isSuffix_of_assigned? hassigned).subset (mem_of_mem_trimLeft hc), ?_⟩
      by_contra hquote
      rw [htrim, literalOf, quotedLiteral_of_not_quote (Bool.eq_false_iff.2 hquote)] at hliteral
      exact nomatch hliteral

theorem follows_of_literalOf {text rest : Chars} (hliteral : literalOf kind text = some rest) :
    Follows kind rest := by
  intro hkind c hc
  rw [literalOf_numeral hkind] at hliteral
  obtain ⟨body, _, rfl⟩ := exists_body_of_numeralLiteral hliteral
  have hhead := List.head?_dropWhile_not (fun c => isDigit c || c == '.') body
  rw [hc] at hhead
  exact hhead

/-- A declaration does not give its default in two places. -/
def OneDefault (kind : InputKind) (arguments : Chars) : Prop :=
  replaceKeyword? (keyOf kind) (literalOf kind) [] arguments = none ∨
    replaceFirst? (literalOf kind) [] arguments = none

instance (kind : InputKind) (arguments : Chars) : Decidable (OneDefault kind arguments) :=
  inferInstanceAs (Decidable (_ ∨ _))

theorem oneDefault_congr {other : InputKind} {arguments : Chars}
    (hkinds : keyOf kind = keyOf other ∧ literalOf kind = literalOf other) :
    OneDefault kind arguments ↔ OneDefault other arguments := by
  rw [OneDefault, hkinds.1, hkinds.2, OneDefault]

theorem replaceFirst?_eq_none_iff {literal : Literal} {new text : Chars} :
    replaceFirst? literal new text = none ↔ literal (trimLeft text) = none :=
  Option.map_eq_none_iff

/-- The text before and behind the place where the writer puts a default into arguments. -/
inductive Hole (kind : InputKind) : Chars → Chars → Chars → Prop where
  | keyword {front text rest : Chars}
      (hfront : ∀ part, part <:+ front → part ≠ [] →
        keyed? (keyOf kind) (literalOf kind) (part ++ text) = none)
      (hkeyed : keyed? (keyOf kind) (literalOf kind) text = some rest)
      (hfirst : literalOf kind (trimLeft (front ++ text)) = none) :
      Hole kind (front ++ text) (front ++ "defval=".toList) rest
  | first {lead text rest : Chars}
      (hkeyed : ∀ part, part <:+ lead ++ text → part ≠ [] →
        keyed? (keyOf kind) (literalOf kind) part = none)
      (hlead : ∀ c ∈ lead, isBlank c = true)
      (htext : ∀ c, text.head? = some c → isBlank c = false)
      (hliteral : literalOf kind text = some rest) : Hole kind (lead ++ text) lead rest

section Fill

variable {arguments front rest new : Chars}

theorem Hole.update (hhole : Hole kind arguments front rest) (new : Chars) :
    updateArguments (keyOf kind) (literalOf kind) new arguments = front ++ (new ++ rest) := by
  cases hhole with
  | keyword hfront hkeyed hfirst =>
      obtain ⟨c, others, rfl, _⟩ := startsKey_of_keyed? hkeyed
      have hreplace : replaceKeyword? (keyOf kind) (literalOf kind) new _ = some _ :=
        replaceKeyword?_append hfront (List.cons_ne_nil _ _) hkeyed
      rw [updateArguments_keyword hreplace hfirst]
      simp
  | @first _ text _ hkeyed hlead htext hliteral =>
      have htrim : trimLeft (front ++ text) = text := dropWhile_blank hlead htext
      have htake : (front ++ text).takeWhile isBlank = front := takeWhile_append_of_stop hlead htext
      rw [updateArguments, replaceKeyword?_eq_none_iff.2 hkeyed, Option.getD_none, if_pos rfl,
        replaceFirst?, htrim, hliteral, htake, Option.map_some, Option.getD_some,
        List.append_assoc]

theorem exists_keyed? {text : Chars} (hsome : replaceKeyword? (keyOf kind) (literalOf kind) [] text ≠
    none) : ∃ front others rest, text = front ++ others ∧
      keyed? (keyOf kind) (literalOf kind) others = some rest ∧ ∀ part, part <:+ front →
        part ≠ [] → keyed? (keyOf kind) (literalOf kind) (part ++ others) = none := by
  induction text with
  | nil => exact absurd rfl hsome
  | cons c text ih =>
      rw [replaceKeyword?_cons] at hsome
      cases hhere : keyed? (keyOf kind) (literalOf kind) (c :: text) with
      | some rest =>
          exact ⟨[], c :: text, rest, rfl, hhere, fun part hpart hne =>
            absurd (List.suffix_nil.1 hpart) hne⟩
      | none =>
          rw [hhere] at hsome
          obtain ⟨front, others, rest, rfl, hkeyed, hfront⟩ := ih fun hnone => hsome (by rw [hnone]; rfl)
          refine ⟨c :: front, others, rest, rfl, hkeyed, fun part hpart hne => ?_⟩
          rcases List.suffix_cons_iff.1 hpart with rfl | hpart
          · exact hhere
          · exact hfront part hpart hne

/-- Arguments have a hole for a default, or the writer leaves them as they are. -/
theorem exists_hole (hone : OneDefault kind arguments) :
    (∃ front rest, Hole kind arguments front rest) ∨
      ∀ new, updateArguments (keyOf kind) (literalOf kind) new arguments = arguments := by
  by_cases hkeyword : replaceKeyword? (keyOf kind) (literalOf kind) [] arguments = none
  · rw [replaceKeyword?_eq_none_iff] at hkeyword
    cases hliteral : literalOf kind (trimLeft arguments) with
    | none =>
        right
        intro new
        rw [updateArguments, replaceKeyword?_eq_none_iff.2 hkeyword, Option.getD_none, if_pos rfl,
          replaceFirst?_eq_none_iff.2 hliteral, Option.getD_none]
    | some rest =>
        left
        have hsplit : arguments.takeWhile isBlank ++ trimLeft arguments = arguments :=
          List.takeWhile_append_dropWhile
        have hhead : ∀ c, (trimLeft arguments).head? = some c → isBlank c = false := by
          intro c hc
          have hnot := List.head?_dropWhile_not isBlank arguments
          rw [← trimLeft, hc] at hnot
          simpa using hnot
        rw [← hsplit] at hkeyword
        have hhole := Hole.first hkeyword (fun c hc => List.mem_takeWhile_imp hc) hhead hliteral
        rw [hsplit] at hhole
        exact ⟨_, _, hhole⟩
  · left
    have hfirst := replaceFirst?_eq_none_iff.1 (hone.resolve_left hkeyword)
    obtain ⟨front, text, rest, rfl, hkeyed, hfront⟩ := exists_keyed? hkeyword
    exact ⟨_, _, .keyword hfront hkeyed hfirst⟩

theorem Hole.oneDefault (hhole : Hole kind arguments front rest) : OneDefault kind arguments := by
  cases hhole with
  | keyword hfront hkeyed hfirst => exact .inr (replaceFirst?_eq_none_iff.2 hfirst)
  | first hkeyed hlead htext hliteral => exact .inl (replaceKeyword?_eq_none_iff.2 hkeyed)

/-- A new text that the writer finds again: it is a literal, and the keyword does not stand in it
before a literal that goes beyond it. -/
structure Refindable (kind : InputKind) (text : Chars) : Prop where
  literal : IsLiteral kind text
  notKeyed : ∀ part, part <:+ text → part ≠ [] → ∀ rest,
    keyed? (keyOf kind) (literalOf kind) (part ++ rest) = none

/-- The hole stays where it is when a text is put into it. -/
theorem Hole.renew (hhole : Hole kind arguments front rest) (hnew : Refindable kind new) :
    Hole kind (front ++ (new ++ rest)) front rest := by
  have hhead := hnew.literal.isValue.head_append rest
  cases hhole with
  | @keyword before text _ hfront hkeyed hfirst =>
      have hkeyword : StartsKey ("defval=".toList ++ (new ++ rest)) := startsKey_default _
      have hstart := startsKey_of_keyed? hkeyed
      have hquote := exists_quote_of_keyed? hkeyed
      have hfollows : Follows kind rest := by
        rw [keyed?_eq_bind] at hkeyed
        obtain ⟨_, _, hliteral⟩ := Option.bind_eq_some_iff.1 hkeyed
        exact follows_of_literalOf hliteral
      have hnewKeyed : keyed? (keyOf kind) (literalOf kind) ("defval=".toList ++ (new ++ rest)) =
          some rest := by
        have hread := @keyed?_keyword (literalOf kind) kind [] (new ++ rest) nofun
        rw [trimLeft_eq_self hhead, hnew.literal.reads hfollows] at hread
        exact hread
      rw [List.append_assoc]
      exact .keyword
        (fun part hpart hne => keyed?_append_key hstart hkeyword hquote hne (hfront part hpart hne))
        hnewKeyed (literalOf_append_key hstart hkeyword hquote hfirst)
  | @first _ text _ hkeyed hlead htext hliteral =>
      refine .first ?_ hlead hhead (hnew.literal.reads (follows_of_literalOf hliteral))
      intro part hpart hne
      rcases suffix_append_iff.1 hpart with hpart | ⟨space, hspace, rfl⟩
      · rcases suffix_append_iff.1 hpart with hpart | ⟨inner, hinner, rfl⟩
        · exact hkeyed part ((hpart.trans (isSuffix_of_literalOf hliteral)).trans
            (List.suffix_append _ _)) hne
        · by_cases hinnerNe : inner = []
          · rw [hinnerNe] at hne ⊢
            exact hkeyed rest ((isSuffix_of_literalOf hliteral).trans
              (List.suffix_append _ _)) hne
          · exact hnew.notKeyed inner hinner hinnerNe rest
      · by_cases hspaceNe : space = []
        · rw [hspaceNe]
          exact hnew.notKeyed new List.suffix_rfl hnew.literal.isValue.nonempty rest
        · obtain ⟨c, others, rfl⟩ := List.exists_cons_of_ne_nil hspaceNe
          apply keyed?_eq_none
          apply keyOf_eq_none
          intro hfold
          have hblank := hlead c (hspace.subset List.mem_cons_self)
          rcases eq_of_foldCase hfold with rfl | rfl <;> exact absurd hblank (by decide)

/-- The last default that is written counts. -/
theorem update_update (hone : OneDefault kind arguments) (hnew : Refindable kind new)
    (last : Chars) :
    updateArguments (keyOf kind) (literalOf kind) last
        (updateArguments (keyOf kind) (literalOf kind) new arguments) =
      updateArguments (keyOf kind) (literalOf kind) last arguments := by
  rcases exists_hole hone with ⟨front, rest, hhole⟩ | hnone
  · rw [hhole.update new, (hhole.renew hnew).update last, hhole.update last]
  · rw [hnone new]

theorem OneDefault.update (hone : OneDefault kind arguments) (hnew : Refindable kind new) :
    OneDefault kind (updateArguments (keyOf kind) (literalOf kind) new arguments) := by
  rcases exists_hole hone with ⟨front, rest, hhole⟩ | hnone
  · rw [hhole.update new]
    exact (hhole.renew hnew).oneDefault
  · rwa [hnone new]

end Fill

/-! ## Brackets -/

section Brackets

variable {arguments new : Chars}

/-- What the writer makes of any arguments. -/
inductive Rewritten (arguments new : Chars) : Chars → Prop where
  | same : Rewritten arguments new arguments
  | keyword {front text rest : Chars} (hsplit : arguments = front ++ text) (hrest : rest <:+ text) :
      Rewritten arguments new (front ++ ("defval=".toList ++ new ++ rest))
  | first {lead text rest : Chars} (hsplit : arguments = lead ++ text) (hrest : rest <:+ text)
      (hlead : ∀ c ∈ lead, isBlank c = true) : Rewritten arguments new (lead ++ (new ++ rest))

theorem rewritten_update (kind : InputKind) (arguments new : Chars) :
    Rewritten arguments new (updateArguments (keyOf kind) (literalOf kind) new arguments) := by
  have hfirst : Rewritten arguments new
      ((replaceFirst? (literalOf kind) new arguments).getD arguments) := by
    rw [replaceFirst?]
    cases hliteral : literalOf kind (trimLeft arguments) with
    | none => exact .same
    | some rest =>
        rw [Option.map_some, Option.getD_some, List.append_assoc]
        exact .first List.takeWhile_append_dropWhile.symm (isSuffix_of_literalOf hliteral)
          fun c hc => List.mem_takeWhile_imp hc
  rw [updateArguments]
  split
  · exact hfirst
  · cases hkeyword : replaceKeyword? (keyOf kind) (literalOf kind) [] arguments with
    | none =>
        rw [replaceKeyword?_eq_none_iff] at hkeyword
        rw [replaceKeyword?_eq_none_iff.2 hkeyword]
        exact .same
    | some updated =>
        obtain ⟨front, text, rest, hsplit, hkeyed, hfront⟩ :=
          exists_keyed? (by rw [hkeyword]; exact Option.some_ne_none updated)
        obtain ⟨c, others, htext, _⟩ := startsKey_of_keyed? hkeyed
        rw [hsplit, replaceKeyword?_append hfront (by rw [htext]; exact List.cons_ne_nil _ _) hkeyed,
          ← hsplit]
        exact .keyword hsplit (isSuffix_of_keyed? hkeyed)

variable {updated : Chars}

theorem Rewritten.closed (hupdated : Rewritten arguments new updated) (hnew : IsNewText new)
    (hclosed : ')' ∉ arguments) : ')' ∉ updated := by
  have hparts {front text rest : Chars} (hsplit : arguments = front ++ text)
      (hrest : rest <:+ text) : ')' ∉ front ∧ ')' ∉ rest := by
    rw [hsplit, List.mem_append, not_or] at hclosed
    exact ⟨hclosed.1, fun hmem => hclosed.2 (hrest.subset hmem)⟩
  cases hupdated with
  | same => exact hclosed
  | keyword hsplit hrest => simp [hparts hsplit hrest, hnew.notClose]
  | first hsplit hrest hlead => simp [hparts hsplit hrest, hnew.notClose]

theorem Rewritten.opensNone (hupdated : Rewritten arguments new updated) (hnew : IsNewText new)
    (hnone : OpensNone arguments) : OpensNone updated := by
  have hparts {front text rest : Chars} (hsplit : arguments = front ++ text)
      (hrest : rest <:+ text) : OpensNone front ∧ OpensNone rest := by
    obtain ⟨skipped, rfl⟩ := hrest
    rw [hsplit] at hnone
    exact ⟨hnone.left, hnone.of_append.of_append⟩
  cases hupdated with
  | same => exact hnone
  | keyword hsplit hrest =>
      exact hnew.opensNone_keyword (hparts hsplit hrest).1 (hparts hsplit hrest).2
  | first hsplit hrest hlead => exact hnew.opensNone_first hlead (hparts hsplit hrest).2

end Brackets

/-! ## Texts that the writer finds again -/

theorem refindable_of_forall {text : Chars} (hliteral : IsLiteral kind text)
    (htext : ∀ c ∈ text, foldCase c ≠ 'd') : Refindable kind text := by
  refine ⟨hliteral, fun part hpart hne rest => keyed?_eq_none ?_ _⟩
  obtain ⟨c, others, rfl⟩ := List.exists_cons_of_ne_nil hne
  exact keyOf_eq_none (htext c (hpart.subset List.mem_cons_self)) _

theorem refindable_numeral (hkind : kind.isNumeric = true) {sign body : Chars}
    (hsign : sign = [] ∨ sign = ['-']) (hne : body ≠ [])
    (hbody : ∀ c ∈ body, isDigit c = true ∨ c = '.') : Refindable kind (sign ++ body) := by
  apply refindable_of_forall (.numeral hkind hsign hne hbody)
  intro c hc hfold
  have hletter : isDigit c = false ∧ c ≠ '.' ∧ c ≠ '-' := by
    rcases eq_of_foldCase hfold with rfl | rfl <;> decide
  rcases List.mem_append.1 hc with hc | hc
  · rcases hsign with rfl | rfl
    · exact absurd hc List.not_mem_nil
    · exact hletter.2.2 (List.mem_singleton.1 hc)
  · rcases hbody c hc with hdigit | hpoint
    · rw [hletter.1] at hdigit
      exact nomatch hdigit
    · exact hletter.2.1 hpoint

theorem refindable_truth {word : String} (hword : word = "true" ∨ word = "false") :
    Refindable .bool word.toList := by
  apply refindable_of_forall (.truth hword)
  rcases hword with rfl | rfl <;> decide

/-- A text that ends with the keyword and an equality sign. -/
def EndsWithKey (text : Chars) : Prop :=
  ∃ part, part <:+ text ∧ (assigned? .string part).map trimLeft = some []

theorem refindable_quoted {content : Chars} (hcontent : ∀ c ∈ content, isQuote c = false)
    (hkey : ¬ EndsWithKey content) : Refindable .string ('"' :: (content ++ ['"'])) := by
  refine ⟨.quoted (by decide) hcontent, fun part hpart hne rest => ?_⟩
  rw [← List.cons_append] at hpart
  rcases suffix_append_iff.1 hpart with hpart | ⟨inner, hinner, rfl⟩
  · -- The closing quote alone.
    rcases List.suffix_cons_iff.1 hpart with rfl | hpart
    · exact keyed?_eq_none (keyOf_eq_none (by decide) _) _
    · exact absurd (List.suffix_nil.1 hpart) hne
  · rcases List.suffix_cons_iff.1 hinner with rfl | hinner
    · exact keyed?_eq_none (keyOf_eq_none (by decide) _) _
    · have hmark (count : Nat) : '"' ∉ "defval".toList.drop count ∧
          foldCase '"' ∉ "defval".toList.drop count := by
        have hnot : '"' ∉ "defval".toList ∧ foldCase '"' ∉ "defval".toList := by decide
        exact ⟨fun hmem => hnot.1 (List.mem_of_mem_drop hmem),
          fun hmem => hnot.2 (List.mem_of_mem_drop hmem)⟩
      obtain ⟨hexact, hfold⟩ := hmark inner.length
      rw [List.append_assoc, List.singleton_append, keyed?_eq_bind,
        assigned?_append_cons (by decide) (by decide) hexact hfold]
      cases hassigned : assigned? .string inner with
      | none => rfl
      | some equals =>
          rw [Option.map_some, Option.bind_some, trimLeft_append_cons (by decide)]
          cases htrim : trimLeft equals with
          | nil => exact absurd ⟨inner, hinner, by rw [hassigned, Option.map_some, htrim]⟩ hkey
          | cons c others =>
              apply quotedLiteral_of_not_quote
              apply hcontent c
              apply hinner.subset
              apply (isSuffix_of_assigned? hassigned).subset
              apply mem_of_mem_trimLeft
              rw [htrim]
              exact List.mem_cons_self

end Backtest.Input
