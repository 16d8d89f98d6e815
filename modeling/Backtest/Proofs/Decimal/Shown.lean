import Backtest.Decimal.Double
import Backtest.Proofs.Decimal.Lawful
import Backtest.Proofs.Decimal.Numeral

/-!
# Written doubles

The text of a finite double is made of the characters of a numeral.  Without an exponent it is made
of digits and points with at most a minus sign before them, as the text of an integer is.
-/

namespace Backtest.Decimal

open Text

/-- Digits and points, with at most a minus sign before them. -/
def IsPlainText (text : Chars) : Prop :=
  ∃ sign body, text = sign ++ body ∧ (sign = [] ∨ sign = ['-']) ∧ body ≠ [] ∧
    ∀ c ∈ body, isDigit c = true ∨ c = '.'

theorem IsPlainText.isNumeralChar {text : Chars} (htext : IsPlainText text) :
    ∀ c ∈ text, IsNumeralChar c := by
  obtain ⟨sign, body, rfl, hsign, _, hbody⟩ := htext
  intro c hc
  rcases List.mem_append.1 hc with hc | hc
  · rcases hsign with rfl | rfl
    · exact absurd hc List.not_mem_nil
    · rw [List.mem_singleton.1 hc]
      exact .inr (by decide)
  · rcases hbody c hc with hdigit | rfl
    · exact .inl hdigit
    · exact .inr (by decide)

theorem isPlainText_toString (n : Int) : IsPlainText (toString n).toList := by
  have hdigits (size : Nat) : ∀ c ∈ Nat.toDigits 10 size, isDigit c = true ∨ c = '.' :=
    fun c hc => .inl (isDigit_of_isDigit (isDigit_of_mem_toDigits hc))
  cases n with
  | ofNat size =>
      have htext : (toString (Int.ofNat size)).toList = Nat.toDigits 10 size := Nat.toList_repr
      exact ⟨[], _, htext, .inl rfl, Nat.toDigits_ne_nil, hdigits size⟩
  | negSucc size =>
      exact ⟨['-'], _, toList_toString_negSucc size, .inr rfl, Nat.toDigits_ne_nil,
        hdigits (size + 1)⟩

/-! ## Layouts -/

section Layouts

variable {shown : List Char}

theorem isDigit_of_mem_replicate {count : Nat} {c : Char} (hc : c ∈ List.replicate count '0') :
    isDigit c = true := by
  rw [List.eq_of_mem_replicate hc]
  decide

theorem isDigit_of_mem_positional (hshown : ∀ c ∈ shown, isDigit c = true) (point : Int) :
    (∀ c ∈ (positional shown point).1, isDigit c = true) ∧
      ∀ c ∈ (positional shown point).2, isDigit c = true := by
  unfold positional
  split
  · constructor
    · intro c hc
      rw [List.mem_singleton.1 hc]
      decide
    · intro c hc
      rcases List.mem_append.1 hc with hc | hc
      · exact isDigit_of_mem_replicate hc
      · exact hshown c hc
  · constructor
    · intro c hc
      rcases List.mem_append.1 hc with hc | hc
      · exact hshown c (List.mem_of_mem_take hc)
      · exact isDigit_of_mem_replicate hc
    · exact fun c hc => hshown c (List.mem_of_mem_drop hc)

theorem isNumeralChar_of_mem_scientific (hshown : ∀ c ∈ shown, isDigit c = true) (point : Int) :
    ∀ c ∈ scientific shown point, IsNumeralChar c := by
  have hdigits (size : Nat) : ∀ c ∈ digits size, IsNumeralChar c :=
    fun c hc => .inl (isDigit_of_isDigit (isDigit_of_mem_toDigits hc))
  have hexponent (exponent : Int) : ∀ c ∈ exponentText exponent, IsNumeralChar c := by
    intro c hc
    rcases List.mem_cons.1 hc with rfl | hc
    · exact .inr (by decide)
    · rcases List.mem_cons.1 hc with rfl | hc
      · split <;> exact .inr (by decide)
      · split at hc
        · rcases List.mem_cons.1 hc with rfl | hc
          · exact .inl (by decide)
          · exact hdigits _ c hc
        · exact hdigits _ c hc
  intro c hc
  rcases List.mem_append.1 hc with hc | hc
  · rcases List.mem_append.1 hc with hc | hc
    · exact .inl (hshown c (List.mem_of_mem_take hc))
    · split at hc
      · exact absurd hc List.not_mem_nil
      · rcases List.mem_cons.1 hc with rfl | hc
        · exact .inr (by decide)
        · exact .inl (hshown c (List.mem_of_mem_drop hc))
  · exact hexponent _ c hc

theorem signText_eq (negative : Bool) : signText negative = [] ∨ signText negative = ['-'] := by
  cases negative
  · exact .inl rfl
  · exact .inr rfl

/-- A finite double is shown plainly, or with an exponent. -/
theorem plain_finite (negative : Bool) (mantissa : Nat) (exponent : Int) :
    IsPlainText (plain (.finite negative mantissa exponent)) ∨
      'e' ∈ plain (.finite negative mantissa exponent) ∧
        ∀ c ∈ plain (.finite negative mantissa exponent), IsNumeralChar c := by
  have hshown : ∀ c ∈ digits (shortest mantissa exponent).coefficient, isDigit c = true :=
    fun c hc => isDigit_of_isDigit (isDigit_of_mem_toDigits hc)
  have hsign := signText_eq negative
  unfold plain
  dsimp only
  generalize (shortest mantissa exponent).exponent +
    ((digits (shortest mantissa exponent).coefficient).length : Int) = point
  generalize digits (shortest mantissa exponent).coefficient = shown at hshown ⊢
  split
  · exact .inl ⟨_, _, rfl, hsign, by decide, by decide⟩
  · split
    · obtain ⟨hwhole, hpart⟩ := isDigit_of_mem_positional hshown point
      refine .inl ⟨_, _, List.append_assoc .., hsign, by simp, fun c hc => ?_⟩
      rcases List.mem_append.1 hc with hc | hc
      · exact .inl (hwhole c hc)
      · rcases List.mem_cons.1 hc with rfl | hc
        · exact .inr rfl
        · split at hc
          · exact .inl (by rw [List.mem_singleton.1 hc]; decide)
          · exact .inl (hpart c hc)
    · refine .inr ⟨by simp [scientific, exponentText], fun c hc => ?_⟩
      rcases List.mem_append.1 hc with hc | hc
      · rcases hsign with hnone | hminus
        · rw [hnone] at hc
          exact absurd hc List.not_mem_nil
        · rw [hminus] at hc
          rw [List.mem_singleton.1 hc]
          exact .inr (by decide)
      · exact isNumeralChar_of_mem_scientific hshown point c hc

end Layouts

/-! ## Doubles -/

section Doubles

variable {x : Float}

theorem exists_finite (hx : Arith.isFinite x = true) :
    ∃ negative mantissa exponent, Binary.ofFloat x = .finite negative mantissa exponent := by
  apply Double.exists_finite_ofFloat
  intro hexponent
  have hfinite : (Float.Model.UnpackedFloat.unpack Float.Model.Format.binary64
      x.toModel.toBits.toBitVec).isFinite = true := hx
  unfold Float.Model.UnpackedFloat.unpack at hfinite
  dsimp only at hfinite
  rw [if_pos hexponent] at hfinite
  split at hfinite <;> exact nomatch hfinite

theorem text_finite (hx : Arith.isFinite x = true) : IsPlainText (Arith.text x).toList ∨
    'e' ∈ (Arith.text x).toList ∧ ∀ c ∈ (Arith.text x).toList, IsNumeralChar c := by
  obtain ⟨negative, mantissa, exponent, hbinary⟩ := exists_finite hx
  have htext : (Arith.text x).toList = plain (.finite negative mantissa exponent) := by
    change (String.ofList (plain (Binary.ofFloat x))).toList = _
    rw [String.toList_ofList, hbinary]
  rw [htext]
  exact plain_finite negative mantissa exponent

/-- Without an exponent a finite double is shown plainly. -/
theorem isPlainText_text (hx : Arith.isFinite x = true)
    (hexponent : 'e' ∉ (Arith.text x).toList) : IsPlainText (Arith.text x).toList := by
  rcases text_finite hx with hplain | ⟨hmem, _⟩
  · exact hplain
  · exact absurd hmem hexponent

theorem isNumeralChar_text (hx : Arith.isFinite x = true) :
    (Arith.text x).toList ≠ [] ∧ ∀ c ∈ (Arith.text x).toList, IsNumeralChar c := by
  rcases text_finite hx with hplain | ⟨hmem, hchars⟩
  · refine ⟨?_, hplain.isNumeralChar⟩
    obtain ⟨sign, body, htext, _, hne, _⟩ := hplain
    rw [htext]
    exact List.append_ne_nil_of_right_ne_nil sign hne
  · exact ⟨List.ne_nil_of_mem hmem, hchars⟩

end Doubles

end Backtest.Decimal
