import Backtest.Decimal.Reading
import Backtest.Proofs.Text.Blank
import Mathlib.Data.List.TakeDrop
import Mathlib.Data.List.TakeWhile

/-!
# Reading numerals

A script numeral is made of digits, signs, points and exponent marks, and the free grammar reads it
as the same number.  A run of digits is read as an integer unless it is too long, and a numeral
without a minus sign does not stand for a negative integer.  The decimal text of an integer is a
script numeral that stands for the integer.

The readers take a numeral from the front of a text.  `Consumes` says what the part that they take
is made of; it passes from one reader to the next.
-/

namespace Backtest.Decimal

open Text

/-- The first text is the second one with characters of a class put before it. -/
def Consumes (p : Char → Prop) (text rest : Chars) : Prop :=
  ∃ front, text = front ++ rest ∧ ∀ c ∈ front, p c

section Consuming

variable {p : Char → Prop} {text middle rest : Chars}

theorem Consumes.refl (p : Char → Prop) (text : Chars) : Consumes p text text :=
  ⟨[], rfl, nofun⟩

theorem Consumes.trans (hfirst : Consumes p text middle) (hsecond : Consumes p middle rest) :
    Consumes p text rest := by
  obtain ⟨front, rfl, hfront⟩ := hfirst
  obtain ⟨back, rfl, hback⟩ := hsecond
  refine ⟨front ++ back, (List.append_assoc ..).symm, ?_⟩
  intro c hc
  rcases List.mem_append.1 hc with hc | hc
  · exact hfront c hc
  · exact hback c hc

theorem Consumes.cons {c : Char} (hc : p c) (hrest : Consumes p text rest) :
    Consumes p (c :: text) rest := by
  obtain ⟨front, rfl, hfront⟩ := hrest
  refine ⟨c :: front, rfl, ?_⟩
  intro other hother
  rcases List.mem_cons.1 hother with rfl | hother
  · exact hc
  · exact hfront other hother

theorem Consumes.mem (hrest : Consumes p text rest) {c : Char} (hc : c ∈ rest) : c ∈ text := by
  obtain ⟨front, rfl, _⟩ := hrest
  exact List.mem_append_right front hc

end Consuming

/-- The characters of a script numeral. -/
def numeralMarks : Chars := ['+', '-', '.', 'e', 'E']

def IsNumeralChar (c : Char) : Prop := isDigit c = true ∨ c ∈ numeralMarks

section Readers

variable (text : Chars)

theorem consumes_takeSign : Consumes IsNumeralChar text (takeSign text).2 := by
  simp only [takeSign]
  split
  · exact (Consumes.refl _ _).cons (.inr (by decide))
  · exact (Consumes.refl _ _).cons (.inr (by decide))
  · exact .refl _ _

theorem takeDigits_eq : takeDigits text = (text.takeWhile isDigit, text.dropWhile isDigit) :=
  List.span_eq_takeWhile_dropWhile ..

theorem consumes_takeDigits : Consumes IsNumeralChar text (takeDigits text).2 := by
  rw [takeDigits_eq]
  exact ⟨_, List.takeWhile_append_dropWhile.symm, fun c hc => .inl (List.mem_takeWhile_imp hc)⟩

theorem consumes_takeFraction : Consumes IsNumeralChar text (takeFraction takeDigits text).2.2 := by
  have hwhole := consumes_takeDigits text
  rw [takeFraction]
  dsimp only
  split
  · next rest hrest =>
      split
      · exact .refl _ _
      · rw [hrest] at hwhole
        exact hwhole.trans ((consumes_takeDigits rest).cons (.inr (by decide)))
  · exact hwhole

theorem consumes_takeExponent : Consumes IsNumeralChar text (takeExponent takeDigits text).2 := by
  unfold takeExponent
  split
  · next mark rest =>
      split
      · next hmark =>
          have hchar : IsNumeralChar mark := by
            rcases hmark with rfl | rfl <;> exact .inr (by decide)
          have hrest := (consumes_takeSign rest).trans (consumes_takeDigits (takeSign rest).2)
          dsimp only
          split
          · exact .refl _ _
          · next hdigits =>
              rw [hdigits] at hrest
              exact hrest.cons hchar
      · exact .refl _ _
  · exact .refl _ _

end Readers

section Script

variable {text : Chars} {numeral : Numeral}

/-- A script numeral is made of digits and the marks of numerals. -/
theorem isNumeralChar_of_scriptNumeral? (hread : scriptNumeral? text = some numeral) :
    ∀ c ∈ text, IsNumeralChar c := by
  rw [scriptNumeral?, takeScriptNumeral?, takeNumeral?] at hread
  dsimp only at hread
  split at hread
  · next found hfound =>
      split at hfound
      · exact nomatch hfound
      · injection hfound with hfound
        injection hfound with _ hrest
        have hconsumes := ((consumes_takeSign text).trans (consumes_takeFraction _)).trans
          (consumes_takeExponent _)
        rw [hrest] at hconsumes
        obtain ⟨front, htext, hfront⟩ := hconsumes
        rw [htext, List.append_nil]
        exact hfront
  · exact nomatch hread

/-- A text that begins with neither a digit, a sign nor a point is no script numeral. -/
theorem scriptNumeral?_eq_none {c : Char} (hdigit : isDigit c = false)
    (hc : c ∉ numeralMarks.take 3)
    (rest : Chars) : scriptNumeral? (c :: rest) = none := by
  simp only [numeralMarks, List.take_succ_cons, List.take_zero, List.mem_cons, List.not_mem_nil,
    or_false, not_or] at hc
  have hsign : takeSign (c :: rest) = (false, c :: rest) := by
    simp only [takeSign]
    split
    · next heq => injection heq with heq; exact absurd heq hc.2.1
    · next heq => injection heq with heq; exact absurd heq hc.1
    · rfl
  have hdigits : takeDigits (c :: rest) = ([], c :: rest) := by
    rw [takeDigits_eq, List.takeWhile_cons, List.dropWhile_cons, hdigit,
      if_neg Bool.false_ne_true, if_neg Bool.false_ne_true]
  have hfraction : takeFraction takeDigits (c :: rest) = ([], [], c :: rest) := by
    rw [takeFraction]
    rw [hdigits]
    dsimp only
    split
    · next heq => injection heq with heq; exact absurd heq hc.2.2
    · rfl
  rw [scriptNumeral?, takeScriptNumeral?, takeNumeral?]
  rw [hsign]
  dsimp only
  rw [hfraction]
  rfl

/-! ## The free grammar -/

theorem takeFurtherDigits_eq (hspaced : '_' ∉ text) : takeFurtherDigits text = takeDigits text := by
  rw [takeDigits_eq]
  induction text with
  | nil => rfl
  | cons c rest ih =>
      have hrest : '_' ∉ rest := fun hmem => hspaced (List.mem_cons_of_mem _ hmem)
      have hc : ¬ (c == '_' && startsWithDigit rest) = true := by
        intro hand
        rw [Bool.and_eq_true, beq_iff_eq] at hand
        exact hspaced (hand.1 ▸ List.mem_cons_self)
      rw [takeFurtherDigits, ih hrest, List.takeWhile_cons, List.dropWhile_cons]
      by_cases hdigit : isDigit c = true
      · rw [if_pos hdigit, if_pos hdigit, if_pos hdigit]
      · rw [if_neg hdigit, if_neg hc, if_neg hdigit, if_neg hdigit]

theorem takeSpacedDigits_eq (hspaced : '_' ∉ text) : takeSpacedDigits text = takeDigits text := by
  rw [takeSpacedDigits, takeFurtherDigits_eq hspaced]
  split
  · rfl
  · next hstart =>
      rw [takeDigits_eq]
      cases text with
      | nil => rfl
      | cons c rest =>
          have hdigit : ¬ isDigit c = true := hstart
          rw [List.takeWhile_cons, List.dropWhile_cons, if_neg hdigit, if_neg hdigit]

/-- Without underscores both grammars read a numeral alike. -/
theorem takeNumeral?_eq (hspaced : '_' ∉ text) :
    takeNumeral? takeSpacedDigits text = takeNumeral? takeDigits text := by
  have hsign : '_' ∉ (takeSign text).2 := fun hmem => hspaced ((consumes_takeSign text).mem hmem)
  have hfraction : takeFraction takeSpacedDigits (takeSign text).2 =
      takeFraction takeDigits (takeSign text).2 := by
    unfold takeFraction
    rw [takeSpacedDigits_eq hsign]
    dsimp only
    split
    · next rest hrest =>
        have hpart : '_' ∉ rest := by
          intro hmem
          apply hsign
          apply (consumes_takeDigits _).mem
          rw [hrest]
          exact List.mem_cons_of_mem _ hmem
        rw [takeSpacedDigits_eq hpart]
    · rfl
  have hexponent : ∀ rest : Chars, '_' ∉ rest →
      takeExponent takeSpacedDigits rest = takeExponent takeDigits rest := by
    intro rest hrest
    cases rest with
    | nil => rfl
    | cons mark others =>
        have hothers : '_' ∉ (takeSign others).2 := fun hmem =>
          hrest (List.mem_cons_of_mem _ ((consumes_takeSign others).mem hmem))
        rw [takeExponent, takeExponent]
        dsimp only
        rw [takeSpacedDigits_eq hothers]
  have hrest : '_' ∉ (takeFraction takeDigits (takeSign text).2).2.2 := fun hmem =>
    hsign ((consumes_takeFraction _).mem hmem)
  unfold takeNumeral?
  dsimp only
  rw [hfraction, hexponent _ hrest]

theorem unpadded_of_isTrimmed (htext : IsTrimmed text) : unpadded text = text := by
  have hdrop : ∀ others : Chars, (∀ c, others.head? = some c → isBlank c = false) →
      others.dropWhile isPadding = others := by
    intro others hothers
    cases others with
    | nil => rfl
    | cons c rest =>
        rw [List.dropWhile_cons, isPadding, hothers c rfl, Bool.false_and,
          if_neg Bool.false_ne_true]
  rw [unpadded, hdrop text htext.head, hdrop text.reverse, List.reverse_reverse]
  intro c hc
  rw [List.head?_reverse] at hc
  exact htext.last c hc

theorem unpadded_eq (htext : ∀ c ∈ text, isBlank c = false) : unpadded text = text :=
  unpadded_of_isTrimmed (isTrimmed_of_forall htext)

theorem not_isBlank_of_isNumeralChar {c : Char} (hc : IsNumeralChar c) : isBlank c = false := by
  rcases hc with hdigit | hmark
  · exact not_isBlank_of_isDigit hdigit
  · have hall : ∀ c ∈ numeralMarks, isBlank c = false := by decide
    exact hall c hmark

theorem takeSign_eq (hplus : '+' ∉ text) (hminus : '-' ∉ text) : takeSign text = (false, text) := by
  simp only [takeSign]
  split
  · exact absurd List.mem_cons_self hminus
  · exact absurd List.mem_cons_self hplus
  · rfl

/-- A digit of any digit system is no letter. -/
theorem toLower_ne_of_isDigit {c : Char} (hc : isDigit c = true) : c.toLower ≠ 'n' := by
  have hascii : ∀ code < 128, isDigit (Char.ofNat code) = true →
      (Char.ofNat code).toLower ≠ 'n' := by decide
  by_cases hcode : c.toNat < 128
  · have hlower := hascii c.toNat hcode
    rw [Char.ofNat_toNat] at hlower
    exact hlower hc
  · delta Char.toLower
    split
    · next hupper =>
        have hle : c.toNat ≤ 90 := hupper.2
        omega
    · rintro rfl
      exact hcode (by decide)

/-- A script numeral is the same number in the free grammar. -/
theorem number?_of_scriptNumeral? {α : Type} [Arith α]
    (hread : scriptNumeral? text = some numeral) : number? text = some (numeral.value : α) := by
  have hchars := isNumeralChar_of_scriptNumeral? hread
  have hletter : 'n' ∉ (takeSign text).2.map Char.toLower := by
    intro hmem
    obtain ⟨c, hc, hlower⟩ := List.mem_map.1 hmem
    rcases hchars c ((consumes_takeSign text).mem hc) with hdigit | hmark
    · exact toLower_ne_of_isDigit hdigit hlower
    · have hall : ∀ c ∈ numeralMarks, c.toLower ≠ 'n' := by decide
      exact hall c hmark hlower
  have hword : ∀ word : String, 'n' ∈ word.toList →
      String.ofList ((takeSign text).2.map Char.toLower) ≠ word := by
    intro word hmem heq
    rw [← heq, String.toList_ofList] at hmem
    exact hletter hmem
  have hspaced : '_' ∉ text := by
    intro hmem
    rcases hchars '_' hmem with hdigit | hmark
    · exact nomatch hdigit
    · exact absurd hmark (by decide)
  have hnumeral : takeNumeral? takeDigits text = some (numeral, []) := by
    rw [scriptNumeral?, takeScriptNumeral?] at hread
    split at hread
    · next found hfound =>
        injection hread with hread
        rw [hfound, hread]
    · exact nomatch hread
  have hinfinite : ¬ (String.ofList ((takeSign text).2.map Char.toLower) = "inf" ∨
      String.ofList ((takeSign text).2.map Char.toLower) = "infinity") := by
    rintro (heq | heq)
    · exact hword _ (by decide) heq
    · exact hword _ (by decide) heq
  unfold number?
  dsimp only
  rw [unpadded_eq fun c hc => not_isBlank_of_isNumeralChar (hchars c hc),
    if_neg (hword "nan" (by decide)), if_neg hinfinite, takeNumeral?_eq hspaced, hnumeral]

/-! ## Integers -/

/-- A run of digits is read as an integer unless it is too long. -/
theorem integer_of_forall_isDigit (hdigits : ∀ c ∈ text, isDigit c = true) (hne : text ≠ []) :
    integer text = if longestInteger < text.length then .error (.tooLong text.length)
      else .ok (digitsValue text : Int) := by
  have hnot : ∀ c : Char, isDigit c = false → c ∉ text := by
    intro c hc hmem
    rw [hdigits c hmem] at hc
    exact nomatch hc
  have htake : takeSpacedDigits text = (text, []) := by
    rw [takeSpacedDigits_eq (hnot '_' (by decide)), takeDigits_eq,
      List.takeWhile_eq_self_iff.2 hdigits,
      List.dropWhile_eq_nil_iff.2 hdigits]
  rw [integer]
  dsimp only
  rw [unpadded_eq fun c hc => not_isBlank_of_isDigit (hdigits c hc),
    takeSign_eq (hnot '+' (by decide)) (hnot '-' (by decide))]
  dsimp only
  rw [htake]
  cases text with
  | nil => exact absurd rfl hne
  | cons c rest => rfl

end Script

/-! ## Signs of integers -/

theorem mem_of_mem_unpadded {c : Char} {text : Chars} (hmem : c ∈ unpadded text) : c ∈ text := by
  rw [unpadded, List.mem_reverse] at hmem
  have hinner := (List.dropWhile_sublist _).mem hmem
  rw [List.mem_reverse] at hinner
  exact (List.dropWhile_sublist _).mem hinner

theorem takeSign_of_not_mem {text : Chars} (hsign : '-' ∉ text) : (takeSign text).1 = false := by
  simp only [takeSign]
  split
  · exact absurd List.mem_cons_self hsign
  · rfl
  · rfl

theorem integer_nonneg {text : Chars} {n : Int} (hsign : '-' ∉ text)
    (hread : integer text = .ok n) : 0 ≤ n := by
  have hnegative : (takeSign (unpadded text)).1 = false :=
    takeSign_of_not_mem fun hmem => hsign (mem_of_mem_unpadded hmem)
  rw [integer] at hread
  dsimp only at hread
  split at hread
  · exact nomatch hread
  · exact nomatch hread
  · split at hread
    · exact nomatch hread
    · split at hread
      · rw [hnegative, if_neg Bool.false_ne_true] at hread
        injection hread with hvalue
        omega
      · exact nomatch hread

/-! ## Written integers -/

theorem isDigit_of_mem_toDigits {n : Nat} {c : Char} (hc : c ∈ Nat.toDigits 10 n) :
    c.isDigit = true := Nat.isDigit_of_mem_toDigits (by decide) (by decide) hc

theorem foldl_digitValue {shown : Chars} (hshown : ∀ c ∈ shown, c.isDigit = true) (total : Nat) :
    shown.foldl (fun total c => total * 10 + (digitValue? c).getD 0) total =
      Nat.ofDigitChars 10 shown total := by
  induction shown generalizing total with
  | nil => rfl
  | cons c rest ih =>
      have hc := hshown c List.mem_cons_self
      rw [List.foldl_cons, ih fun d hd => hshown d (List.mem_cons_of_mem _ hd), digitValue?,
        if_pos hc, Option.getD_some, Nat.mul_comm total]
      rfl

theorem digitsValue_toDigits (n : Nat) : digitsValue (Nat.toDigits 10 n) = n := by
  rw [digitsValue, foldl_digitValue fun _ => isDigit_of_mem_toDigits,
    Nat.ofDigitChars_toDigits (by decide) (by decide)]

theorem isDigit_of_isDigit {c : Char} (hc : c.isDigit = true) : isDigit c = true := by
  rw [isDigit, digitValue?, if_pos hc]
  rfl

theorem toList_toString_negSucc (n : Nat) :
    (toString (Int.negSucc n)).toList = '-' :: Nat.toDigits 10 (n + 1) := by
  rw [Int.toString_eq_repr, Int.repr, String.toList_append, Nat.toList_repr]
  rfl

/-- Digits with no more than a sign before them. -/
theorem scriptNumeral?_of_forall_isDigit {text digits : Chars} {negative : Bool}
    (hsign : takeSign text = (negative, digits)) (hdigits : ∀ c ∈ digits, isDigit c = true)
    (hne : digits ≠ []) :
    scriptNumeral? text = some ⟨negative, digitsValue digits, 0⟩ := by
  have htake : takeDigits digits = (digits, []) := by
    rw [takeDigits_eq, List.takeWhile_eq_self_iff.2 hdigits, List.dropWhile_eq_nil_iff.2 hdigits]
  have hfraction : takeFraction takeDigits digits = (digits, [], []) := by
    rw [takeFraction]
    rw [htake]
  have hempty : (digits.isEmpty && ([] : Chars).isEmpty) = false := by
    rw [List.isEmpty_eq_false_iff.2 hne, Bool.false_and]
  rw [scriptNumeral?, takeScriptNumeral?, takeNumeral?]
  rw [hsign]
  dsimp only
  rw [hfraction]
  dsimp only
  rw [hempty, List.append_nil]
  rfl

theorem scriptNumeral?_toString (n : Int) :
    scriptNumeral? (toString n).toList = some ⟨decide (n < 0), n.natAbs, 0⟩ := by
  have hdigits (size : Nat) : ∀ c ∈ Nat.toDigits 10 size, isDigit c = true :=
    fun _ hc => isDigit_of_isDigit (isDigit_of_mem_toDigits hc)
  have hsigns (size : Nat) : takeSign (Nat.toDigits 10 size) = (false, Nat.toDigits 10 size) := by
    apply takeSign_eq <;> exact fun hmem => absurd (hdigits size _ hmem) (by decide)
  cases n with
  | ofNat size =>
      have htext : (toString (Int.ofNat size)).toList = Nat.toDigits 10 size := Nat.toList_repr
      have hnegative : decide (Int.ofNat size < 0) = false := by simp
      rw [htext, scriptNumeral?_of_forall_isDigit (hsigns size) (hdigits size) Nat.toDigits_ne_nil,
        digitsValue_toDigits, hnegative]
      rfl
  | negSucc size =>
      have hsign : takeSign ('-' :: Nat.toDigits 10 (size + 1)) =
          (true, Nat.toDigits 10 (size + 1)) := rfl
      have hnegative : decide (Int.negSucc size < 0) = true := by simp
      rw [toList_toString_negSucc, scriptNumeral?_of_forall_isDigit hsign (hdigits _)
        Nat.toDigits_ne_nil, digitsValue_toDigits, hnegative]
      rfl

end Backtest.Decimal
