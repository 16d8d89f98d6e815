import Backtest.Proofs.Expr.Congruence
import Backtest.Proofs.Expr.Template

/-!
# Taking exchanged texts apart

Two texts are exchanged if they are one template that is filled with two tokens.  Whatever takes a
text apart takes exchanged texts apart at the same places, and into exchanged texts: splits at an
operator, brackets around the whole text, the name and the arguments of a call, and hence the
operands of every form (`Exchanged.operands`).
-/

namespace Backtest.Expr

open Text Template

/-! ## Exchanged texts -/

/-- Two texts are one template, filled with two tokens. -/
def Exchanged (old new text other : Chars) : Prop :=
  ∃ template : Template, template.Stands new ∧
    text = fill old template ∧ other = fill new template

/-- Two splits whose sides are exchanged. -/
def ExchangedSides (old new : Chars) (sides twins : Chars × Chars) : Prop :=
  Exchanged old new sides.1 twins.1 ∧ Exchanged old new sides.2 twins.2

variable {old new : Chars} (hold : IsToken old) (hnew : IsToken new)
variable {text other : Chars}

include hold hnew

namespace Exchanged

theorem trim (htext : Exchanged old new text other) :
    Exchanged old new (trim text) (trim other) := by
  obtain ⟨template, hstands, rfl, rfl⟩ := htext
  exact ⟨template.trimmed, hstands.trimmed, trim_fill hold.nonempty hold.chars template,
    trim_fill hnew.nonempty hnew.chars template⟩

theorem isEmpty_eq (htext : Exchanged old new text other) : text.isEmpty = other.isEmpty := by
  obtain ⟨template, _, rfl, rfl⟩ := htext
  rw [isEmpty_fill hold.nonempty, isEmpty_fill hnew.nonempty]

end Exchanged

/-! ## Splits -/

/-- A filled template is split where the template says. -/
theorem exchanged_splitsFrom {sign : Chars} (hsign : IsSign sign) {front back : Template}
    (hstands : Stands (front ++ back) new) {state : Nesting} (hstate : state.Quoted) :
    List.Forall₂ (ExchangedSides old new)
      (splitsFrom sign state (fill old front).reverse (fill old back))
      (splitsFrom sign state (fill new front).reverse (fill new back)) := by
  induction back generalizing front state with
  | nil => exact .nil
  | cons piece rest ih => cases piece with
    | none =>
        have hstops : ∀ c, isTokenChar c = true → ∀ before rest : Chars,
            standsHere sign before (c :: rest) = false := by
          obtain ⟨head, tail, rfl, hhead⟩ := hsign.exists_head
          intro c hc
          apply standsHere_of_head_ne
          rintro rfl
          rw [hc] at hhead
          exact nomatch hhead
        rw [(scans_splitsFrom sign).fill_none hold hstops hstate,
          (scans_splitsFrom sign).fill_none hnew hstops hstate]
        exact ih (by rwa [List.append_assoc]) hstate
    | some c =>
        have hbeside : (some c :: rest).IsChain Beside := hstands.beside.right_of_append
        have hlater := @ih (front ++ [some c]) (by rwa [List.append_assoc]) _ (hstate.step c)
        rw [fill_append, fill_append, List.reverse_append, List.reverse_append] at hlater
        rw [fill_some, fill_some, splitsFrom, splitsFrom, ← fill_some, ← fill_some,
          hsign.standsHere_fill hold front hbeside, hsign.standsHere_fill hnew front hbeside]
        dsimp only
        split
        · next hstop =>
            have hstarts : sign.map some <+: some c :: rest := by
              rw [Bool.and_eq_true, Bool.and_eq_true, decide_eq_true_eq] at hstop
              exact hstop.2.1
            obtain ⟨hleft, later, hrest, hright⟩ := hsign.cut hstands hstarts
            have hdrop (token : Chars) :
                (fill token (some c :: rest)).drop sign.length = fill token later := by
              rw [← hrest, fill_append, fill_map_some, List.drop_left]
            have hsides : ExchangedSides old new
                (trim (fill old front).reverse.reverse, trim (fill old later))
                (trim (fill new front).reverse.reverse, trim (fill new later)) := by
              rw [List.reverse_reverse, List.reverse_reverse]
              exact ⟨.trim hold hnew ⟨front, hleft, rfl, rfl⟩,
                .trim hold hnew ⟨later, hright, rfl, rfl⟩⟩
            rw [hdrop, hdrop, hsides.1.isEmpty_eq hold hnew, hsides.2.isEmpty_eq hold hnew]
            split
            · exact hlater
            · exact .cons hsides hlater
        · exact hlater

theorem Exchanged.splits {sign : Chars} (htext : Exchanged old new text other)
    (hsign : IsSign sign) :
    List.Forall₂ (ExchangedSides old new) (splits sign text) (splits sign other) := by
  obtain ⟨template, hstands, rfl, rfl⟩ := htext
  exact @exchanged_splitsFrom _ _ hold hnew _ hsign [] template hstands Nesting.start nofun

theorem Exchanged.firstSplit {sign : Chars} (htext : Exchanged old new text other)
    (hsign : IsSign sign) :
    Option.Rel (ExchangedSides old new) (firstSplit sign text) (firstSplit sign other) := by
  rw [Expr.firstSplit, Expr.firstSplit, List.head?_eq_getElem?, List.head?_eq_getElem?]
  exact rel_getElem? (htext.splits hold hnew hsign) 0

/-! ## Arguments -/

theorem exchanged_argumentsFrom {front back : Template}
    (hstands : Stands (front ++ back) new) {state : Nesting} (hstate : state.Quoted) :
    List.Forall₂ (Exchanged old new)
      (argumentsFrom state (fill old front).reverse (fill old back))
      (argumentsFrom state (fill new front).reverse (fill new back)) := by
  have htrim {front : Template} (hfront : front.Stands new) : Exchanged old new
      (Text.trim (fill old front).reverse.reverse)
      (Text.trim (fill new front).reverse.reverse) := by
    rw [List.reverse_reverse, List.reverse_reverse]
    exact .trim hold hnew ⟨front, hfront, rfl, rfl⟩
  induction back generalizing front state with
  | nil =>
      have hlast := htrim (by rwa [List.append_nil] at hstands)
      rw [fill_nil, fill_nil, argumentsFrom, argumentsFrom,
        hlast.isEmpty_eq hold hnew]
      split
      · exact .nil
      · exact .cons hlast .nil
  | cons piece rest ih => cases piece with
    | none =>
        have hstops : ∀ c, isTokenChar c = true → ∀ _ rest : Chars,
            ((c :: rest).head? == some ',') = false := by
          intro c hc _ rest
          rw [List.head?_cons, beq_eq_false_iff_ne]
          rintro ⟨⟩
          exact absurd hc (by decide)
        rw [scans_argumentsFrom.fill_none hold hstops hstate,
          scans_argumentsFrom.fill_none hnew hstops hstate]
        exact ih (by rwa [List.append_assoc]) hstate
    | some c =>
        have hlater := @ih (front ++ [some c]) (by rwa [List.append_assoc]) _ (hstate.step c)
        rw [fill_append, fill_append, List.reverse_append, List.reverse_append] at hlater
        rw [fill_some, fill_some, argumentsFrom, argumentsFrom]
        split
        · next hstop =>
            rw [Bool.and_eq_true, beq_iff_eq] at hstop
            obtain ⟨_, rfl⟩ := hstop
            have hcomma : isTokenChar ',' = false := by decide
            exact .cons (htrim (hstands.left hcomma))
              (@ih [] (hstands.right hcomma) _ (hstate.step ','))
        · exact hlater

theorem Exchanged.arguments (htext : Exchanged old new text other) :
    List.Forall₂ (Exchanged old new) (arguments text) (arguments other) := by
  obtain ⟨template, hstands, rfl, rfl⟩ := htext
  exact @exchanged_argumentsFrom _ _ hold hnew [] template hstands Nesting.start nofun

/-! ## Brackets -/

/-- Which brackets belong together does not depend on what a template is filled with. -/
theorem closesFrom_fill (template : Template) (depth : Nat) {quote : Option Char}
    (hquote : ∀ mark, quote = some mark → isQuote mark = true) :
    closesFrom depth quote (fill old template) = closesFrom depth quote (fill new template) := by
  induction template generalizing depth quote with
  | nil => rfl
  | cons piece rest ih => cases piece with
    | none =>
        rw [Template.fill_none, Template.fill_none, closesFrom_token hold.chars depth hquote,
          closesFrom_token hnew.chars depth hquote]
        exact ih depth hquote
    | some c =>
        have hnone : ∀ mark, (none : Option Char) = some mark → isQuote mark = true := nofun
        rw [fill_some, fill_some]
        cases quote with
        | some mark =>
            rw [closesFrom, closesFrom]
            apply ih
            intro other hother
            split at hother
            · cases hother
            · exact hquote other hother
        | none =>
            rw [closesFrom, closesFrom]
            split
            · next hmark => exact ih depth (by rintro mark ⟨⟩; exact hmark)
            · split
              · exact ih (depth + 1) hnone
              · split
                · split
                  · rw [isEmpty_fill hold.nonempty, isEmpty_fill hnew.nonempty]
                  · exact ih (depth - 1) hnone
                · exact ih depth hnone

theorem Exchanged.isWrapped_eq (htext : Exchanged old new text other) :
    isWrapped text = isWrapped other := by
  obtain ⟨template, _, rfl, rfl⟩ := htext
  cases template with
  | nil => rfl
  | cons piece rest => cases piece with
    | none =>
        rw [Template.fill_none, Template.fill_none, isWrapped_token hold, isWrapped_token hnew]
    | some c =>
        by_cases hopen : c = '('
        · rw [hopen]
          exact closesFrom_fill hold hnew rest 1 nofun
        · rw [fill_some, fill_some, isWrapped_cons hopen, isWrapped_cons hopen]

omit hnew in
/-- A filled template ends with a character that is none of a token only where the template does. -/
theorem exists_of_getLast?_fill {template : Template} {c : Char} (hc : isTokenChar c = false)
    (hlast : (fill old template).getLast? = some c) : ∃ front, template = front ++ [some c] := by
  induction template using List.reverseRecOn with
  | nil => exact nomatch hlast
  | append_singleton front piece _ => cases piece with
    | some other =>
        rw [fill_append, fill_some, fill_nil, List.getLast?_concat, Option.some_inj] at hlast
        exact ⟨front, by rw [hlast]⟩
    | none =>
        rw [fill_append, Template.fill_none, fill_nil, List.append_nil,
          List.getLast?_append_of_ne_nil _ hold.nonempty] at hlast
        rw [hold.chars c (List.mem_of_getLast? hlast)] at hc
        exact nomatch hc

omit hnew in
/-- What brackets hold, without the bracket that closes them. -/
theorem exchanged_dropLast {template : Template} (hstands : template.Stands new)
    (hcloses : closesFrom 1 none (fill old template) = true) :
    Exchanged old new (fill old template).dropLast (fill new template).dropLast := by
  have hbracket : isTokenChar ')' = false := by decide
  obtain ⟨front, rfl⟩ := exists_of_getLast?_fill hold hbracket (getLast?_of_closesFrom hcloses)
  have hdrop (token : Chars) : (fill token (front ++ [some ')'])).dropLast = fill token front := by
    rw [fill_append, fill_some, fill_nil, List.dropLast_concat]
  rw [hdrop, hdrop]
  exact ⟨front, hstands.left hbracket, rfl, rfl⟩

omit hnew in
theorem Exchanged.inner (htext : Exchanged old new text other) (hwrapped : isWrapped text = true) :
    Exchanged old new (text.drop 1).dropLast (other.drop 1).dropLast := by
  obtain ⟨template, hstands, rfl, rfl⟩ := htext
  cases template with
  | nil => exact nomatch hwrapped
  | cons piece rest => cases piece with
    | none =>
        rw [Template.fill_none, isWrapped_token hold] at hwrapped
        exact nomatch hwrapped
    | some c =>
        by_cases hopen : c = '('
        · rw [hopen] at hstands hwrapped ⊢
          have hwhole : Stands ([] ++ some '(' :: rest) new := hstands
          exact exchanged_dropLast hold (hwhole.right (by decide)) hwrapped
        · rw [fill_some, isWrapped_cons hopen] at hwrapped
          exact nomatch hwrapped

/-! ## Calls -/

omit hnew in
/-- No open place stands in the name of a call. -/
theorem isCallName_fill {front back : Template} (hstands : Stands (front ++ some '(' :: back) new)
    (hopen : none ∈ front) : isCallName (Text.trim (fill old front)) = false := by
  obtain ⟨start, rest, rfl⟩ := List.append_of_mem hopen
  obtain ⟨first, others, hfirst⟩ := List.exists_cons_of_ne_nil hold.nonempty
  have hnext := not_isTokenChar_of_head? hstands.beside.left_of_append.right_of_append old
  by_cases hblank : ∀ c ∈ fill old rest, isBlank c = true
  · refine absurd ?_ (hstands.uncalled (fill old rest) hblank)
    rw [← eq_map_some_of_blank hold.nonempty hold.chars hblank]
    exact ⟨start, back, by simp⟩
  · -- Something stands between the open place and the bracket, and no name goes on there.
    obtain ⟨last, hlast, hnot⟩ : ∃ c ∈ fill old rest, isBlank c = false := by simpa using hblank
    obtain ⟨middle, later, hmiddle⟩ := List.append_of_mem hlast
    rw [Bool.eq_false_iff]
    intro hname
    have hchars := isCallChar_of_isCallName hname
    have htrim : Text.trim (fill old (start ++ none :: rest)) =
        trimLeft (fill old start) ++ first :: (others ++ middle ++ last :: trimRight later) := by
      rw [fill_append, Template.fill_none, hmiddle, hfirst, List.cons_append, ← List.append_assoc,
        trim_between (not_isBlank_of_isTokenChar (hold.chars first (hfirst ▸ List.mem_cons_self)))
          hnot]
    have hall : ∀ c ∈ middle ++ [last], isCallChar c = true := by
      intro c hc
      apply hchars
      rw [htrim]
      simp only [List.mem_append, List.mem_cons, List.not_mem_nil, or_false] at hc ⊢
      tauto
    obtain ⟨c, hc, hhead⟩ : ∃ c, c ∈ middle ++ [last] ∧ (fill old rest).head? = some c := by
      rw [hmiddle]
      cases middle with
      | nil => exact ⟨last, List.mem_cons_self, rfl⟩
      | cons c middle => exact ⟨c, List.mem_cons_self, rfl⟩
    have htoken := hnext c hhead
    rw [isTokenChar, hall c hc] at htoken
    cases htoken

theorem Exchanged.call? (htext : Exchanged old new text other) :
    Option.Rel (fun call twin => call.name = twin.name ∧
      List.Forall₂ (Exchanged old new) call.arguments twin.arguments)
      (call? text) (call? other) := by
  have hbracket : isTokenChar '(' = false := by decide
  obtain ⟨template, hstands, rfl, rfl⟩ := htext
  by_cases hopen : some '(' ∈ template
  · obtain ⟨front, back, rfl, hfront⟩ := List.eq_append_cons_of_mem hopen
    have hcut {token : Chars} (htoken : IsToken token) :
        cutAt '(' (fill token (front ++ some '(' :: back)) =
          some (fill token front, fill token back) := by
      rw [fill_append, fill_some]
      exact cutAt_append fun hmem => hfront ((mem_fill_iff htoken.chars hbracket).1 hmem)
    have hcloses : isWrapped ('(' :: fill old back) = isWrapped ('(' :: fill new back) :=
      closesFrom_fill hold hnew back 1 nofun
    rw [Expr.call?, Expr.call?, hcut hold, hcut hnew]
    dsimp only
    rw [hcloses]
    cases hwrapped : isWrapped ('(' :: fill new back) with
    | false => exact .none
    | true =>
        by_cases hname : none ∈ front
        · rw [isCallName_fill hold hstands hname, isCallName_fill hnew hstands hname]
          exact .none
        · obtain ⟨name, rfl⟩ := exists_eq_map_some hname
          rw [fill_map_some, fill_map_some]
          cases isCallName (Text.trim name) with
          | false => exact .none
          | true =>
              rw [← hcloses] at hwrapped
              refine .some ⟨rfl, ?_⟩
              exact (exchanged_dropLast hold (hstands.right hbracket) hwrapped).arguments hold hnew
  · have hcut {token : Chars} (htoken : IsToken token) : cutAt '(' (fill token template) = none :=
      cutAt_eq_none_iff.2 fun hmem => hopen ((mem_fill_iff htoken.chars hbracket).1 hmem)
    rw [Expr.call?, Expr.call?, hcut hold, hcut hnew]
    exact .none

/-! ## Forms -/

/-- What is taken off the front of exchanged texts ends with a character that is none of a token. -/
theorem exchanged_after? {start : Chars} {c : Char} (hc : isTokenChar c = false)
    {template : Template} (hstands : template.Stands new)
    (hstarts : ∀ {token}, IsToken token →
      (start ++ [c] <+: fill token template ↔ (start ++ [c]).map some <+: template)) :
    Option.Rel (Exchanged old new) (after? (start ++ [c]) (fill old template))
      (after? (start ++ [c]) (fill new template)) := by
  rw [after?, after?]
  by_cases hstart : (start ++ [c]).map some <+: template
  · rw [if_pos (List.isPrefixOf_iff_prefix.2 ((hstarts hold).2 hstart)),
      if_pos (List.isPrefixOf_iff_prefix.2 ((hstarts hnew).2 hstart))]
    obtain ⟨rest, rfl⟩ := hstart
    have hwhole : Stands (start.map some ++ some c :: rest) new := by simpa using hstands
    have hdrop (token : Chars) :
        (fill token ((start ++ [c]).map some ++ rest)).drop (start ++ [c]).length =
          fill token rest := by
      rw [fill_append, fill_map_some, List.drop_left]
    rw [hdrop, hdrop]
    exact .some ⟨rest, hwhole.right hc, rfl, rfl⟩
  · rw [if_neg fun h => hstart ((hstarts hold).1 (List.isPrefixOf_iff_prefix.1 h)),
      if_neg fun h => hstart ((hstarts hnew).1 (List.isPrefixOf_iff_prefix.1 h))]
    exact .none

theorem Exchanged.negated? (htext : Exchanged old new text other) :
    Option.Rel (Exchanged old new) (negated? text) (negated? other) := by
  obtain ⟨template, hstands, rfl, rfl⟩ := htext
  have hword : Option.Rel (Exchanged old new) (after? ("not".toList ++ [' ']) (fill old template))
      (after? ("not".toList ++ [' ']) (fill new template)) :=
    exchanged_after? hold hnew (by decide) hstands fun htoken =>
      prefix_fill_of_word htoken (by decide) hstands.beside
  have hmark : Option.Rel (Exchanged old new) (after? ([] ++ ['!']) (fill old template))
      (after? ([] ++ ['!']) (fill new template)) :=
    exchanged_after? hold hnew (by decide) hstands fun htoken =>
      prefix_fill_of_forall htoken (by decide)
  match hold : after? ['n', 'o', 't', ' '] (fill old template),
    hnew : after? ['n', 'o', 't', ' '] (fill new template), hword with
  | none, none, _ =>
      rw [Expr.negated?, Expr.negated?, hold, hnew]
      exact hmark
  | some rest, some twin, .some hrest =>
      rw [Expr.negated?, Expr.negated?, hold, hnew]
      exact .some hrest

theorem Exchanged.branches? (htext : Exchanged old new text other) :
    Option.Rel (fun parts twins => Exchanged old new parts.1 twins.1 ∧
      Exchanged old new parts.2.1 twins.2.1 ∧ Exchanged old new parts.2.2 twins.2.2)
      (branches? text) (branches? other) := by
  have hquestion : IsSign ['?'] := .marks (by decide) (by decide)
  have hcolon : IsSign [':'] := .marks (by decide) (by decide)
  match hsplit : Expr.firstSplit ['?'] text, hother : Expr.firstSplit ['?'] other,
    htext.firstSplit hold hnew hquestion with
  | none, none, _ =>
      rw [Expr.branches?, Expr.branches?, hsplit, hother]
      exact .none
  | some sides, some twins, .some ⟨hcondition, hbranches⟩ =>
      match hcolons : Expr.firstSplit [':'] sides.2, htwins : Expr.firstSplit [':'] twins.2,
        hbranches.firstSplit hold hnew hcolon with
      | none, none, _ =>
          rw [Expr.branches?, Expr.branches?, hsplit, hother, Option.bind_some, Option.bind_some,
            hcolons, htwins]
          exact .none
      | some branches, some others, .some ⟨hfirst, hsecond⟩ =>
          rw [Expr.branches?, Expr.branches?, hsplit, hother, Option.bind_some, Option.bind_some,
            hcolons, htwins]
          exact .some ⟨hcondition, hfirst, hsecond⟩

omit hold hnew in
theorem forall₂_bothSides {splits others : List (Chars × Chars)}
    (hsides : List.Forall₂ (ExchangedSides old new) splits others) :
    List.Forall₂ (Exchanged old new) (bothSides splits) (bothSides others) := by
  induction hsides with
  | nil => exact .nil
  | cons hsides _ ih => exact .cons hsides.1 (.cons hsides.2 ih)

omit hold hnew in
theorem forall₂_toList {ι κ : Type} {R : ι → κ → Prop} {x : Option ι} {y : Option κ}
    (hrel : Option.Rel R x y) : List.Forall₂ R x.toList y.toList := by
  cases hrel with
  | none => exact .nil
  | some hrel => exact .cons hrel .nil

theorem Exchanged.firstSides {sign : Chars} (htext : Exchanged old new text other)
    (hsign : IsSign sign) : List.Forall₂ (Exchanged old new)
      (bothSides (Expr.firstSplit sign text).toList)
      (bothSides (Expr.firstSplit sign other).toList) :=
  forall₂_bothSides (forall₂_toList (htext.firstSplit hold hnew hsign))

omit hold hnew in
theorem isSign_of_junction {kind : Junction} {symbol : Chars}
    (hform : Form.junction kind symbol ∈ Form.all) : IsSign symbol := by
  have hor : "or".toList ∈ operatorWords := by decide
  have hand : "and".toList ∈ operatorWords := by decide
  simp only [Form.all, Junction.symbols, Comparison.all, Operation.all, List.map_cons, List.map_nil,
    List.cons_append, List.nil_append, List.mem_cons, List.not_mem_nil, Form.junction.injEq,
    reduceCtorEq, false_or, or_false] at hform
  rcases hform with ⟨_, rfl⟩ | ⟨_, rfl⟩ | ⟨_, rfl⟩ | ⟨_, rfl⟩
  · exact .word hor
  · exact .marks (by decide) (by decide)
  · exact .word hand
  · exact .marks (by decide) (by decide)

/-- The operands of exchanged texts are exchanged one by one. -/
theorem Exchanged.operands (htext : Exchanged old new text other) {form : Form}
    (hform : form ∈ Form.all) :
    List.Forall₂ (Exchanged old new) (form.operands text) (form.operands other) := by
  cases form with
  | choice =>
      match hsplit : Expr.branches? text, hother : Expr.branches? other,
        htext.branches? hold hnew with
      | none, none, _ =>
          rw [Form.operands, Form.operands, hsplit, hother]
          exact .nil
      | some (_, _, _), some (_, _, _), .some ⟨hcondition, hfirst, hsecond⟩ =>
          rw [Form.operands, Form.operands, hsplit, hother]
          exact .cons hcondition (.cons hfirst (.cons hsecond .nil))
  | junction kind symbol => exact htext.firstSides hold hnew (isSign_of_junction hform)
  | negation => exact forall₂_toList (htext.negated? hold hnew)
  | comparison kind =>
      apply htext.firstSides hold hnew
      cases kind <;> exact .marks (by decide) (by decide)
  | operation kind =>
      apply forall₂_bothSides
      apply htext.splits hold hnew
      cases kind <;> exact .marks (by decide) (by decide)

end Backtest.Expr
