import Backtest.Proofs.Expr.Printing

/-!
# What the leaves of a term are read as

A numeral is not a name, a name is not a numeral, and neither is a call or a history; a text between
quotes is none of these whatever it holds.  Hence each leaf of a term has its meaning, and a window
length or a number in a call is the one that its token stands for.
-/

namespace Backtest.Expr

open Text

variable {text : Chars}

/-! ## Kinds of leaves -/

/-- There is a history only where an opening bracket follows the first name. -/
theorem history?_eq_none (htext : (text.dropWhile isWord).head? ≠ some '[') :
    history? text = none := by
  rw [history?, List.span_eq_takeWhile_dropWhile]
  split
  · rfl
  · next name rest hparts =>
      injection hparts with _ hrest
      rw [hrest] at htext
      exact absurd rfl htext
  · rfl

theorem history?_eq_none_of_bare (htext : ∀ c ∈ text, IsBare c) : history? text = none := by
  apply history?_eq_none
  intro hhead
  have hmem : '[' ∈ text := (List.dropWhile_sublist _).mem (List.mem_of_head? hhead)
  exact (htext _ hmem).2.2.1 rfl

theorem call?_eq_none_of_bare (htext : ∀ c ∈ text, IsBare c) : call? text = none := by
  have hpass : ∀ c ∈ text, (c != '(') = true := by
    intro c hc
    rw [bne_iff_ne]
    exact (htext c hc).2.1
  have hdrop : text.dropWhile (· != '(') = [] := List.dropWhile_eq_nil_iff.2 hpass
  rw [call?, cutAt, hdrop]

/-- What stands before the first bracket of a call is a name. -/
theorem call?_eq_none_of_mem {c : Char} (hc : c ∈ text.takeWhile (· != '('))
    (hblank : isBlank c = false) (hchar : isCallChar c = false) : call? text = none := by
  have hname : isCallName (trim (text.takeWhile (· != '('))) = false := by
    rw [Bool.eq_false_iff]
    intro hname
    have hall := isCallChar_of_isCallName hname c (mem_trim hc hblank)
    rw [hchar] at hall
    exact nomatch hall
  rw [call?, cutAt]
  cases text.dropWhile (· != '(') with
  | nil => rfl
  | cons _ inner =>
      dsimp only
      rw [hname, Bool.and_false, if_neg Bool.false_ne_true]

theorem textLiteral?_eq_none_of_bare (htext : ∀ c ∈ text, IsBare c) : textLiteral? text = none := by
  cases text with
  | nil => rfl
  | cons c rest =>
      rw [textLiteral?, (htext c List.mem_cons_self).1, Bool.false_and, if_neg Bool.false_ne_true]

/-- A name begins with none of the characters that a numeral begins with. -/
theorem not_isDigit_of_isNameStart {c : Char} (hc : isNameStart c = true) :
    isDigit c = false ∧ c ∉ Decimal.numeralMarks.take 3 := by
  have hascii : ∀ code < 128, isNameStart (Char.ofNat code) = true →
      isDigit (Char.ofNat code) = false ∧ Char.ofNat code ∉ Decimal.numeralMarks.take 3 := by
    decide +kernel
  have hcode : c.toNat < 128 := by
    have hstart := hc
    rw [isNameStart, Bool.or_eq_true, beq_iff_eq] at hstart
    rcases hstart with halpha | rfl
    · have hupper : c.isUpper = true → c.toNat ≤ 90 := fun hupper =>
        (of_decide_eq_true hupper).2
      have hlower : c.isLower = true → c.toNat ≤ 122 := fun hlower =>
        of_decide_eq_true (Bool.and_eq_true_iff.1 hlower).2
      rcases Bool.or_eq_true_iff.1 halpha with hcase | hcase
      · exact Nat.lt_of_le_of_lt (hupper hcase) (by decide)
      · exact Nat.lt_of_le_of_lt (hlower hcase) (by decide)
    · decide
  have hletter := hascii c.toNat hcode
  rw [Char.ofNat_toNat] at hletter
  exact hletter hc

/-- No numeral begins like a name. -/
theorem scriptNumeral?_of_isIdentifier (htext : isIdentifier text = true) :
    Decimal.scriptNumeral? text = none := by
  cases text with
  | nil => rfl
  | cons c rest =>
      rw [isIdentifier, Bool.and_eq_true] at htext
      obtain ⟨hdigit, hmark⟩ := not_isDigit_of_isNameStart htext.1
      exact Decimal.scriptNumeral?_eq_none hdigit hmark rest

theorem NumeralToken.isIdentifier_eq_false (token : NumeralToken) :
    isIdentifier token.text = false := by
  rw [Bool.eq_false_iff]
  intro hname
  have hreads := token.reads
  rw [scriptNumeral?_of_isIdentifier hname] at hreads
  exact nomatch hreads

/-! ## Leaves on their own -/

variable {α : Type} [Arith α] {context : Context α} {operand : Evaluator α}

theorem firstOf_leaf (hbare : ∀ c ∈ text, IsBare c) :
    firstOf text [history context, callOf context operand, atom context] =
      firstOf text [atom context] := by
  rw [firstOf, history, history?_eq_none_of_bare hbare]
  change firstOf text [callOf context operand, atom context] = _
  rw [firstOf, callOf, call?_eq_none_of_bare hbare]
  rfl

theorem NumeralToken.atom_eq (token : NumeralToken) :
    atom context token.text = .ok (some (.number token.numeral.value)) := by
  rw [atom, textLiteral?_eq_none_of_bare fun c hc => (token.bare c hc).1, token.reads]

/-- An identifier is looked up, if it is no truth value. -/
theorem atom_of_isIdentifier (htext : isIdentifier text = true)
    (hvalue : text ∉ ["true".toList, "false".toList]) :
    atom context text = .ok (context.env.value? (String.ofList text)) := by
  have hbare : ∀ c ∈ text, IsBare c := fun c hc =>
    .of_isCallChar (isCallChar_of_isWord (isWord_of_isIdentifier htext c hc))
  rw [List.mem_cons, List.mem_singleton, not_or] at hvalue
  rw [atom, textLiteral?_eq_none_of_bare hbare, scriptNumeral?_of_isIdentifier htext]
  dsimp only
  rw [if_neg hvalue.1, if_neg hvalue.2, htext, if_pos rfl]

theorem NameToken.atom_eq (token : NameToken) :
    atom context token.text = .ok (context.env.value? token.string) :=
  atom_of_isIdentifier token.identifier fun hmem =>
    token.unreserved (List.mem_append_right _ hmem)

theorem NumeralToken.firstOf_eq (token : NumeralToken) :
    firstOf token.text [history context, callOf context operand, atom context] =
      .ok (some (.number token.numeral.value)) := by
  have hbare : ∀ c ∈ token.text, IsBare c := fun c hc => (token.bare c hc).1
  rw [firstOf_leaf hbare]
  exact firstOf_cons token.atom_eq _

theorem NameToken.firstOf_eq (token : NameToken) {value : Value α}
    (hvalue : context.env.value? token.string = some value) :
    firstOf token.text [history context, callOf context operand, atom context] =
      .ok (some value) := by
  rw [firstOf_leaf fun c hc => (token.bare c hc).1]
  exact firstOf_cons (token.atom_eq.trans (congrArg Except.ok hvalue)) _

/-- A name on its own is an atom whatever the operands are. -/
theorem NameToken.step_eq (token : NameToken) :
    step context operand token.text = firstOf token.text [atom context] := by
  have hbare : ∀ c ∈ token.text, IsBare c := fun c hc => (token.bare c hc).1
  have htrimmed : IsTrimmed token.text := token.proper.isTrimmed
  rw [step_eq_firstOf htrimmed token.nonempty (isWrapped_of_forall token.bare),
    firstOf_atom token.proper, firstOf_leaf hbare]

/-- The words of the operators are names where they stand alone. -/
theorem step_operatorWord (htext : text ∈ operatorWords) :
    step context operand text = firstOf text [atom context] := by
  simp only [operatorWords, List.mem_cons, List.not_mem_nil, or_false] at htext
  rcases htext with rfl | rfl | rfl <;> rfl

/-- An identifier that stands alone has the value of its name, if it is no truth value. -/
theorem evaluate?_identifier (htext : isIdentifier text = true)
    (hvalue : text ∉ ["true".toList, "false".toList]) :
    evaluate? context text = .ok (context.env.value? (String.ofList text)) := by
  have hstep : evaluate? context text = firstOf text [atom context] := by
    rw [evaluate?, evaluateWithin]
    by_cases hword : text ∈ operatorWords
    · exact step_operatorWord hword
    · exact NameToken.step_eq ⟨text, htext, fun hmem =>
        (List.mem_append.1 hmem).elim hword hvalue⟩
  rw [hstep, firstOf, atom_of_isIdentifier htext hvalue]
  cases context.env.value? (String.ofList text) <;> rfl

theorem firstOf_truth (value : Bool) :
    firstOf (if value then "true".toList else "false".toList)
        [history context, callOf context operand, atom context] =
      .ok (some (.flag value)) := by
  cases value <;> rfl

/-- What begins and ends with a quote is a text, whatever it holds. -/
theorem firstOf_textLiteral {content : Chars} (hliteral : textLiteral? text = some content) :
    firstOf text [history context, callOf context operand, atom context] =
      .ok (some (.text (String.ofList content))) := by
  obtain ⟨mark, rest, rfl, hquote⟩ : ∃ mark rest, text = mark :: rest ∧ isQuote mark = true := by
    cases text with
    | nil => cases hliteral
    | cons mark rest =>
        rw [textLiteral?] at hliteral
        split at hliteral
        · next hends => exact ⟨mark, rest, rfl, (Bool.and_eq_true_iff.1 hends).1⟩
        · cases hliteral
  have hmarks : ∀ mark : Char, isQuote mark = true →
      isWord mark = false ∧ isCallChar mark = false ∧ mark ≠ '[' ∧ (mark != '(') = true := by
    intro mark hquote
    rw [isQuote, Bool.or_eq_true, beq_iff_eq, beq_iff_eq] at hquote
    rcases hquote with rfl | rfl <;> decide
  obtain ⟨hword, hchar, hsquare, hround⟩ := hmarks mark hquote
  have hhistory : history? (mark :: rest) = none := by
    apply history?_eq_none
    rw [List.dropWhile_cons, hword, if_neg Bool.false_ne_true, List.head?_cons]
    intro heq
    injection heq with heq
    exact hsquare heq
  have hcall : call? (mark :: rest) = none := by
    apply call?_eq_none_of_mem _ (not_isBlank_of_isQuote hquote) hchar
    rw [List.takeWhile_cons, hround, if_pos rfl]
    exact List.mem_cons_self
  rw [firstOf, history, hhistory]
  change firstOf _ [callOf context operand, atom context] = _
  rw [firstOf, callOf, hcall]
  apply firstOf_cons
  rw [atom, hliteral]

theorem TextToken.firstOf_eq (token : TextToken) :
    firstOf (token.mark :: (token.content ++ [token.mark]))
        [history context, callOf context operand, atom context] =
      .ok (some (.text (String.ofList token.content))) := by
  apply firstOf_textLiteral
  rw [textLiteral?, token.quote, List.getLast?_concat, BEq.rfl, Bool.and_self, if_pos rfl,
    List.dropLast_concat]

theorem history?_eq_some {name count : Chars} (hname : ∀ c ∈ name, isWord c = true)
    (hne : name ≠ []) (hcount : ∀ c ∈ count, isDigit c = true) (hne' : count ≠ []) :
    history? (name ++ '[' :: (count ++ [']'])) = some (name, count) := by
  have hspan : (name ++ '[' :: (count ++ [']'])).span isWord = (name, '[' :: (count ++ [']'])) := by
    rw [List.span_eq_takeWhile_dropWhile, List.takeWhile_append_of_pos hname,
      List.dropWhile_append_of_pos hname]
    exact congrArg₂ Prod.mk (List.append_nil name) rfl
  have hdigits : (count ++ [']']).span isDigit = (count, [']']) := by
    rw [List.span_eq_takeWhile_dropWhile, List.takeWhile_append_of_pos hcount,
      List.dropWhile_append_of_pos hcount]
    exact congrArg₂ Prod.mk (List.append_nil count) rfl
  cases name with
  | nil => exact absurd rfl hne
  | cons first others =>
      cases count with
      | nil => exact absurd rfl hne'
      | cons digit digits => simp only [history?, hspan, hdigits]

theorem firstOf_history (token : NameToken) (count : CountToken) {value : Value α}
    (hvalue : earlier context token count = some value) :
    firstOf (token.text ++ '[' :: (count.text ++ [']']))
        [history context, callOf context operand, atom context] =
      .ok (some value) := by
  have hshort : ¬ Decimal.longestInteger < count.text.length := Nat.not_lt.2 count.short
  have hcount : Decimal.integer count.text = .ok (Decimal.digitsValue count.text : Int) := by
    rw [Decimal.integer_of_forall_isDigit count.digits count.nonempty, if_neg hshort]
  apply firstOf_cons
  rw [history, history?_eq_some token.isWord token.nonempty count.digits count.nonempty]
  dsimp only
  rw [hcount]
  cases hname : context.env.value? token.string with
  | none =>
      rw [earlier, hname] at hvalue
      exact nomatch hvalue
  | some found =>
      have hfound : context.env.value? (String.ofList token.text) = some found := hname
      rw [earlier, hname] at hvalue
      rw [hfound]
      cases found with
      | series xs => exact congrArg Except.ok hvalue
      | flags values => exact congrArg Except.ok hvalue
      | _ => exact nomatch hvalue

theorem ofName?_name (builtin : Builtin) : Builtin.ofName? builtin.name = some builtin := by
  cases builtin <;> decide

/-- The text of a call is read as the call. -/
theorem firstOf_call (builtin : Builtin) {texts : List Chars}
    (htexts : ∀ text ∈ texts, IsArgument text) {value : Value α}
    (hvalue : callValue context operand builtin texts = .ok (some value)) :
    firstOf (callText builtin.name.toList texts)
        [history context, callOf context operand, atom context] =
      .ok (some value) := by
  have hhistory : history? (callText builtin.name.toList texts) = none := by
    apply history?_eq_none
    cases builtin <;> exact nofun
  rw [firstOf, history, hhistory]
  change firstOf _ [callOf context operand, atom context] = _
  apply firstOf_cons
  rw [callOf, call?_callText (isCallName_name builtin) htexts]
  dsimp only
  rw [String.ofList_toList, ofName?_name]
  exact hvalue

/-! ## Leaves as arguments -/

omit [Arith α] in
/-- Only identifiers have a value. -/
theorem Named.value?_eq_none {env : Environment α} (hnamed : Named env)
    (htext : isIdentifier text = false) : env.value? (String.ofList text) = none := by
  rw [Environment.value?]
  cases hget : Record.get? env (String.ofList text) with
  | none => rfl
  | some bound =>
      have hname := hnamed _ (Record.mem_of_get? hget)
      rw [String.toList_ofList, htext] at hname
      exact nomatch hname

theorem NumeralToken.windowOf_eq (token : NumeralToken) (hnamed : Named context.env)
    (default : Nat) :
    windowOf context (some token.text) default =
      .ok (windowOr default (token.numeral.value : α)) := by
  have htrim : trim token.text = token.text :=
    trim_of_isTrimmed (isTrimmed_of_forall fun c hc => (token.bare c hc).2.1) token.nonempty
  have hnumber : Decimal.number? (String.ofList token.text).toList =
      some (token.numeral.value : α) := by
    rw [String.toList_ofList]
    exact Decimal.number?_of_scriptNumeral? token.reads
  rw [windowOf, htrim, hnamed.value?_eq_none token.isIdentifier_eq_false]
  dsimp only
  rw [Scalar.period, Scalar.period?, Scalar.toReal?, Scalar.toReal, hnumber]
  rfl

theorem NameToken.windowOf_eq (token : NameToken) {x : α}
    (hvalue : context.env.value? token.string = some (.number x)) (default : Nat) :
    windowOf context (some token.text) default = .ok (windowOr default x) := by
  have htrim : trim token.text = token.text :=
    trim_of_isTrimmed (isTrimmed_of_forall fun c hc => (token.bare c hc).2.1) token.nonempty
  have hbound : context.env.value? (String.ofList token.text) = some (.number x) := hvalue
  rw [windowOf, htrim, hbound]
  rfl

end Backtest.Expr
