import Backtest.Expr.Split

/-!
# Text outside quotes and brackets

`Outside p text` says that the quotes and brackets of a text are closed and that each character
outside them satisfies `p`.  Whatever scans such a text from the left comes to its end in the state
that it started in, and sees only the characters outside.  The lemmas of this file say so for each
of the scans: for splits at an operator, for the arguments of a call, and for the search of the
bracket that closes an open one.
-/

namespace Backtest.Expr

open Text

/-- A character that opens and closes nothing. -/
def IsBare (c : Char) : Prop :=
  isQuote c = false ∧ c ≠ '(' ∧ c ≠ '[' ∧ c ≠ ')' ∧ c ≠ ']'

instance (c : Char) : Decidable (IsBare c) := inferInstanceAs (Decidable (_ ∧ _))

/-- Quotes and brackets are closed, and the characters outside them have a property. -/
inductive Outside : (Char → Prop) → Chars → Prop where
  | nil {p : Char → Prop} : Outside p []
  | bare {p : Char → Prop} {c : Char} {text : Chars} (hbare : IsBare c) (hc : p c)
      (htext : Outside p text) : Outside p (c :: text)
  | quoted {p : Char → Prop} {mark : Char} {content text : Chars} (hmark : isQuote mark = true)
      (hcontent : mark ∉ content) (htext : Outside p text) :
      Outside p (mark :: (content ++ mark :: text))
  | round {p : Char → Prop} {inner text : Chars} (hinner : Outside (fun _ => True) inner)
      (htext : Outside p text) : Outside p ('(' :: (inner ++ ')' :: text))
  | square {p : Char → Prop} {inner text : Chars} (hinner : Outside (fun _ => True) inner)
      (htext : Outside p text) : Outside p ('[' :: (inner ++ ']' :: text))

namespace Outside

variable {p q : Char → Prop} {c : Char} {text other : Chars}

theorem mono (htext : Outside p text) (hpq : ∀ c, p c → q c) : Outside q text := by
  induction htext with
  | nil => exact .nil
  | bare hbare hc _ ih => exact .bare hbare (hpq _ hc) (ih hpq)
  | quoted hmark hcontent _ ih => exact .quoted hmark hcontent (ih hpq)
  | round hinner _ _ ih => exact .round hinner (ih hpq)
  | square hinner _ _ ih => exact .square hinner (ih hpq)

/-- The characters outside do not matter within brackets. -/
theorem inside (htext : Outside p text) : Outside (fun _ => True) text :=
  htext.mono fun _ _ => trivial

theorem append (htext : Outside p text) (hother : Outside p other) : Outside p (text ++ other) := by
  induction htext with
  | nil => exact hother
  | bare hbare hc _ ih => exact .bare hbare hc (ih hother)
  | quoted hmark hcontent _ ih =>
      rw [List.cons_append, List.append_assoc]
      exact .quoted hmark hcontent (ih hother)
  | round hinner _ _ ih =>
      rw [List.cons_append, List.append_assoc]
      exact .round hinner (ih hother)
  | square hinner _ _ ih =>
      rw [List.cons_append, List.append_assoc]
      exact .square hinner (ih hother)

/-- A text without quotes and brackets lies outside as a whole. -/
theorem of_forall (htext : ∀ c ∈ text, IsBare c ∧ p c) : Outside p text := by
  induction text with
  | nil => exact .nil
  | cons c rest ih =>
      obtain ⟨hbare, hc⟩ := htext c List.mem_cons_self
      exact .bare hbare hc (ih fun other hother => htext other (List.mem_cons_of_mem _ hother))

theorem wrap (htext : Outside q text) : Outside p ('(' :: (text ++ [')'])) :=
  .round htext.inside .nil

/-- A bare character at the front lies outside. -/
theorem of_cons (htext : Outside p (c :: text)) (hbare : IsBare c) : p c ∧ Outside p text := by
  obtain ⟨hquote, hopen, hsquare, _, _⟩ := hbare
  cases htext with
  | bare _ hc htext => exact ⟨hc, htext⟩
  | quoted hmark _ _ => rw [hquote] at hmark; exact nomatch hmark
  | round _ _ => exact absurd rfl hopen
  | square _ _ => exact absurd rfl hsquare

end Outside

/-! ## Steps of a scan -/

namespace Nesting

variable {c mark : Char} (depth : Int)

theorem step_bare (hbare : IsBare c) :
    (⟨depth, none⟩ : Nesting).step c = (⟨depth, none⟩, decide (depth = 0)) := by
  obtain ⟨hquote, hopen, hsquare, hclose, hend⟩ := hbare
  simp [step, hquote, hopen, hsquare, hclose, hend]

theorem step_quote (hmark : isQuote mark = true) :
    (⟨depth, none⟩ : Nesting).step mark = (⟨depth, some mark⟩, false) := by
  simp [step, hmark]

theorem step_quoted (hc : c ≠ mark) :
    (⟨depth, some mark⟩ : Nesting).step c = (⟨depth, some mark⟩, false) := by
  simp [step, hc]

theorem step_open : (⟨depth, none⟩ : Nesting).step '(' = (⟨depth + 1, none⟩, false) := rfl

theorem step_close : (⟨depth + 1, none⟩ : Nesting).step ')' = (⟨depth, none⟩, false) := by
  simp [step, isQuote]

theorem step_openSquare : (⟨depth, none⟩ : Nesting).step '[' = (⟨depth + 1, none⟩, false) := rfl

theorem step_closeSquare : (⟨depth + 1, none⟩ : Nesting).step ']' = (⟨depth, none⟩, false) := by
  simp [step, isQuote]

theorem step_unquote : (⟨depth, some mark⟩ : Nesting).step mark = (⟨depth, none⟩, false) := by
  simp [step]

end Nesting

/-! ## Scans that collect what they have passed -/

/-- A function that walks a text with its nesting and the text before it, the latest first, and that
only does something where a character outside stops it. -/
def Scans {β : Type} (scan : Nesting → Chars → Chars → β) (stops : Chars → Chars → Bool) : Prop :=
  ∀ state before c rest, ((state.step c).2 && stops before (c :: rest)) = false →
    scan state before (c :: rest) = scan (state.step c).1 (c :: before) rest

namespace Scans

variable {β : Type} {scan : Nesting → Chars → Chars → β} {stops : Chars → Chars → Bool}
variable {p : Char → Prop} {text : Chars}

/-- A scan goes over a character that is not outside. -/
theorem pass (hscan : Scans scan stops) {state next : Nesting} {c : Char}
    (hstep : state.step c = (next, false)) (before rest : Chars) :
    scan state before (c :: rest) = scan next (c :: before) rest := by
  rw [hscan, hstep]
  rw [hstep, Bool.false_and]

theorem quoted (hscan : Scans scan stops) {mark : Char} {content : Chars}
    (hcontent : mark ∉ content) (depth : Int) (before rest : Chars) :
    scan ⟨depth, some mark⟩ before (content ++ mark :: rest) =
      scan ⟨depth, none⟩ (mark :: (content.reverse ++ before)) rest := by
  induction content generalizing before with
  | nil => exact hscan.pass (Nesting.step_unquote depth) before rest
  | cons c content ih =>
      obtain ⟨hc, hrest⟩ := List.ne_and_not_mem_of_not_mem_cons hcontent
      rw [List.cons_append, hscan.pass (Nesting.step_quoted depth hc.symm), ih hrest,
        List.reverse_cons, List.append_assoc]
      rfl

/-- A scan goes over a bracket and what it holds if it goes over what it holds. -/
theorem bracketed (hscan : Scans scan stops) {first last : Char} {inner : Chars} {depth : Int}
    (hopen : (⟨depth, none⟩ : Nesting).step first = (⟨depth + 1, none⟩, false))
    (hclose : (⟨depth + 1, none⟩ : Nesting).step last = (⟨depth, none⟩, false))
    (hinner : ∀ before rest, scan ⟨depth + 1, none⟩ before (inner ++ rest) =
      scan ⟨depth + 1, none⟩ (inner.reverse ++ before) rest) (before rest : Chars) :
    scan ⟨depth, none⟩ before (first :: (inner ++ last :: rest)) =
      scan ⟨depth, none⟩ (last :: (inner.reverse ++ first :: before)) rest := by
  rw [hscan.pass hopen, hinner, hscan.pass hclose]

/-- A scan that no character outside stops goes over the whole text. -/
theorem outside (hscan : Scans scan stops) (htext : Outside p text) {depth : Int}
    (hdepth : 0 ≤ depth)
    (hstops : depth = 0 → ∀ c, p c → ∀ before rest, stops before (c :: rest) = false)
    (before rest : Chars) :
    scan ⟨depth, none⟩ before (text ++ rest) =
      scan ⟨depth, none⟩ (text.reverse ++ before) rest := by
  induction htext generalizing depth before rest with
  | nil => rfl
  | @bare p c text hbare hc _ ih =>
      have hstep := Nesting.step_bare depth hbare
      have hnot : ((Nesting.step ⟨depth, none⟩ c).2 && stops before (c :: (text ++ rest))) =
          false := by
        rw [hstep]
        by_cases hzero : depth = 0
        · rw [hstops hzero c hc, Bool.and_false]
        · rw [decide_eq_false hzero, Bool.false_and]
      rw [List.cons_append, hscan _ _ _ _ hnot, hstep, ih hdepth hstops, List.reverse_cons,
        List.append_assoc]
      rfl
  | quoted hmark hcontent _ ih =>
      rw [List.cons_append, List.append_assoc, List.cons_append,
        hscan.pass (Nesting.step_quote depth hmark), hscan.quoted hcontent, ih hdepth hstops]
      simp
  | @round p inner text _ _ ihinner ih =>
      have hinner : ∀ before rest, scan ⟨depth + 1, none⟩ before (inner ++ rest) =
          scan ⟨depth + 1, none⟩ (inner.reverse ++ before) rest :=
        ihinner (by omega) (by intro hzero; omega)
      rw [List.cons_append, List.append_assoc, List.cons_append,
        hscan.bracketed (Nesting.step_open depth) (Nesting.step_close depth) hinner,
        ih hdepth hstops]
      simp
  | @square p inner text _ _ ihinner ih =>
      have hinner : ∀ before rest, scan ⟨depth + 1, none⟩ before (inner ++ rest) =
          scan ⟨depth + 1, none⟩ (inner.reverse ++ before) rest :=
        ihinner (by omega) (by intro hzero; omega)
      rw [List.cons_append, List.append_assoc, List.cons_append,
        hscan.bracketed (Nesting.step_openSquare depth) (Nesting.step_closeSquare depth) hinner,
        ih hdepth hstops]
      simp

end Scans

/-! ## Splits and arguments -/

section Splits

variable {op text : Chars}

theorem scans_splitsFrom (op : Chars) : Scans (splitsFrom op) (standsHere op) := by
  intro state before c rest hnot
  rw [splitsFrom]
  dsimp only
  rw [hnot, if_neg Bool.false_ne_true]

/-- An operator stands only where its first character does. -/
theorem standsHere_of_head_ne {head c : Char} {tail : Chars} (hne : head ≠ c)
    (before rest : Chars) : standsHere (head :: tail) before (c :: rest) = false := by
  simp [standsHere, hne]

/-- There is no split at an operator whose first character stands nowhere outside. -/
theorem splits_eq_nil {head : Char} {tail : Chars} (htext : Outside (head ≠ ·) text) :
    splits (head :: tail) text = [] := by
  have hscan := (scans_splitsFrom (head :: tail)).outside htext (Int.le_refl 0)
    (fun _ _ hne => standsHere_of_head_ne hne) [] []
  rw [List.append_nil] at hscan
  exact hscan

theorem scans_argumentsFrom :
    Scans argumentsFrom fun _ here => here.head? == some ',' := by
  intro state before c rest hnot
  rw [argumentsFrom]
  change ((state.step c).2 && (some c == some ',')) = false at hnot
  rw [show (c == ',') = (some c == some ',') from rfl, hnot, if_neg Bool.false_ne_true]

end Splits

/-! ## The closing bracket -/

section Closing

variable {p : Char → Prop} {text : Chars}

theorem closesFrom_quoted {mark : Char} {content : Chars} (hcontent : mark ∉ content)
    (depth : Nat) (rest : Chars) :
    closesFrom depth (some mark) (content ++ mark :: rest) = closesFrom depth none rest := by
  induction content with
  | nil => simp [closesFrom]
  | cons c content ih =>
      obtain ⟨hc, hrest⟩ := List.ne_and_not_mem_of_not_mem_cons hcontent
      rw [List.cons_append, closesFrom, if_neg hc.symm, ih hrest]

/-- An open bracket is not closed within the text. -/
theorem closesFrom_outside (htext : Outside p text) {depth : Nat} (hdepth : 0 < depth)
    (rest : Chars) : closesFrom depth none (text ++ rest) = closesFrom depth none rest := by
  induction htext generalizing depth rest with
  | nil => rfl
  | bare hbare _ _ ih =>
      obtain ⟨hquote, hopen, _, hclose, _⟩ := hbare
      rw [List.cons_append, closesFrom, hquote, if_neg Bool.false_ne_true, if_neg hopen,
        if_neg hclose, ih hdepth]
  | quoted hmark hcontent _ ih =>
      rw [List.cons_append, List.append_assoc, List.cons_append, closesFrom, if_pos hmark,
        closesFrom_quoted hcontent, ih hdepth]
  | @round p inner text _ _ ihinner ih =>
      have hdeep : ¬ depth + 1 ≤ 1 := by omega
      have hback : closesFrom (depth + 1) none (')' :: (text ++ rest)) =
          closesFrom depth none (text ++ rest) := by
        change (if depth + 1 ≤ 1 then _ else closesFrom (depth + 1 - 1) none (text ++ rest)) = _
        rw [if_neg hdeep, Nat.add_sub_cancel]
      rw [List.cons_append, List.append_assoc, List.cons_append]
      change closesFrom (depth + 1) none (inner ++ ')' :: (text ++ rest)) = _
      rw [ihinner (Nat.succ_pos depth), hback, ih hdepth]
  | @square p inner text _ _ ihinner ih =>
      rw [List.cons_append, List.append_assoc, List.cons_append]
      change closesFrom depth none (inner ++ ']' :: (text ++ rest)) = _
      rw [ihinner hdepth]
      exact ih hdepth rest

/-- A text that goes on after its first bracket is closed is not wrapped. -/
theorem isWrapped_append_cons {c : Char} (htext : Outside p text) (hne : text ≠ []) (rest : Chars) :
    isWrapped (text ++ c :: rest) = false := by
  cases htext with
  | nil => exact absurd rfl hne
  | @bare _ first text hbare _ _ =>
      rw [List.cons_append, isWrapped]
      intro other hother
      injection hother with hfirst
      exact hbare.2.1 hfirst
  | @quoted _ mark content text hmark _ _ =>
      rw [List.cons_append, isWrapped]
      intro other hother
      injection hother with hfirst
      rw [hfirst] at hmark
      exact nomatch hmark
  | @round _ inner text hinner _ =>
      change closesFrom 1 none ((inner ++ ')' :: text) ++ c :: rest) = false
      rw [List.append_assoc, closesFrom_outside hinner Nat.one_pos]
      change (text ++ c :: rest).isEmpty = false
      cases text <;> rfl
  | square _ _ => rfl

theorem isWrapped_wrap (htext : Outside p text) : isWrapped ('(' :: (text ++ [')'])) = true := by
  change closesFrom 1 none (text ++ [')']) = true
  rw [closesFrom_outside htext Nat.one_pos]
  rfl

end Closing

end Backtest.Expr
