import Backtest.Proofs.Decimal.Opposite
import Backtest.Proofs.Decimal.Rounding
import Mathlib.Algebra.Order.Monoid.Prod

/-!
# Widening by a number that is not negative

Adding a number that is not negative to another one does not make it smaller, and taking it away
does not make it larger, as long as the result is defined.  Roots and products of such numbers are
not negative either.  So a line at a number of deviations above an average is not below it.

Rounding keeps all of this on doubles (`Double.widening`), because it does not cross a double:
the exact sum is on one side of the first summand, and so is the double nearest to it.
-/

namespace Backtest

open Arith

/-- A number is at least zero, or it is undefined. -/
def NotBelowZero {α : Type} [Arith α] (x : α) : Prop := isNaN x = true ∨ atMost zero x = true

structure Widening (α : Type) [Arith α] : Prop extends Steady α where
  sqrt_notBelow : ∀ x : α, NotBelowZero (sqrt x)
  mul_notBelow : ∀ x y : α, atMost zero x = true → atMost zero y = true → NotBelowZero (x * y)
  le_add : ∀ x y : α, atMost zero y = true → isNaN (x + y) = false → atMost x (x + y) = true
  sub_le : ∀ x y : α, atMost zero y = true → isNaN (x - y) = false → atMost (x - y) x = true

/-! ## Doubles -/

namespace Double

open Float.Model Float.Model.UnpackedFloat

/-! ### Signs -/

/-- An unpacked double that is not negative. -/
inductive Nonnegative : UnpackedFloat → Prop
  | zero (sign : Sign) : Nonnegative (.zero sign)
  | infinity : Nonnegative (.infinity .positive)
  | finite (mantissa : Nat) (exponent : Int) (hpositive : 0 < mantissa) :
      Nonnegative (.finite .positive mantissa exponent hpositive)

theorem compare_zero_iff (u : UnpackedFloat) :
    (UnpackedFloat.compare (.zero .positive) u).any (·.isLE) = true ↔ Nonnegative u := by
  constructor
  · intro hle
    cases u with
    | notANumber => exact nomatch hle
    | zero sign => exact .zero sign
    | infinity sign =>
        cases sign with
        | negative => exact nomatch hle
        | positive => exact .infinity
    | finite sign =>
        cases sign with
        | negative => exact nomatch hle
        | positive => exact .finite ..
  · intro hnonnegative
    cases hnonnegative <;> rfl

theorem atMost_zero_iff {x : Float} : atMost Arith.zero x = true ↔ Nonnegative x.toModel.unpack := by
  rw [atMost_iff, unpack_zero, compare_zero_iff]

theorem nonnegative_packComponents (exponent : BitVec 11) (mantissa : BitVec 52) :
    let u := UnpackedFloat.unpack Format.binary64
      (packComponents Format.binary64 .positive exponent mantissa)
    u.isNaN = true ∨ Nonnegative u := by
  rw [unpack_packComponents]
  split
  · split
    · exact .inr .infinity
    · exact .inl rfl
  · split
    · split
      · exact .inr (.zero _)
      · exact .inr (.finite ..)
    · exact .inr (.finite ..)

theorem Nonnegative.unpack_pack {u : UnpackedFloat} (hu : Nonnegative u) :
    let v := UnpackedFloat.unpack Format.binary64 (UnpackedFloat.pack Format.binary64 u)
    v.isNaN = true ∨ Nonnegative v := by
  cases hu with
  | zero sign =>
      rw [UnpackedFloat.pack, unpack_packedZero]
      exact .inr (.zero sign)
  | infinity => exact nonnegative_packComponents _ _
  | finite mantissa exponent hpositive =>
      rw [pack_finite]
      split
      · exact nonnegative_packComponents _ _
      · split
        · exact nonnegative_packComponents _ _
        · exact nonnegative_packComponents _ _

/-- What is undefined or not negative is so in its bits. -/
theorem notBelowZero_pack {u : UnpackedFloat} (hu : u = .notANumber ∨ Nonnegative u) :
    NotBelowZero (Float.ofModel (Float.Model.pack u)) := by
  rw [NotBelowZero, atMost_zero_iff]
  rcases hu with rfl | hu
  · exact .inl rfl
  · exact hu.unpack_pack

theorem nonnegative_roundWithAccuracy (mantissa : Nat) (exponent : Int) (accuracy : Accuracy) :
    Nonnegative (roundWithAccuracy Format.binary64 .positive mantissa exponent accuracy) := by
  unfold roundWithAccuracy
  dsimp only
  split
  · exact .zero _
  · exact .finite ..

theorem nonnegative_sqrt (u : UnpackedFloat) :
    UnpackedFloat.sqrt Format.binary64 u = .notANumber ∨
      Nonnegative (UnpackedFloat.sqrt Format.binary64 u) := by
  cases u with
  | notANumber => exact .inl rfl
  | zero sign => exact .inr (.zero sign)
  | infinity sign =>
      cases sign with
      | negative => exact .inl rfl
      | positive => exact .inr .infinity
  | finite sign =>
      cases sign with
      | negative => exact .inl rfl
      | positive => exact .inr (nonnegative_roundWithAccuracy ..)

theorem nonnegative_mul {u v : UnpackedFloat} (hu : Nonnegative u) (hv : Nonnegative v) :
    UnpackedFloat.mul Format.binary64 u v = .notANumber ∨
      Nonnegative (UnpackedFloat.mul Format.binary64 u v) := by
  cases hu with
  | zero =>
      cases hv with
      | infinity => exact .inl rfl
      | zero | finite => exact .inr (.zero _)
  | infinity =>
      cases hv with
      | zero => exact .inl rfl
      | infinity | finite => exact .inr .infinity
  | finite =>
      cases hv with
      | zero => exact .inr (.zero _)
      | infinity => exact .inr .infinity
      | finite => exact .inr (nonnegative_roundWithAccuracy ..)

/-! ### Sums -/

theorem key_le_iff_within {m n : Nat} {e f : Int} {hm : 0 < m} {hn : 0 < n} :
    (key (.finite .positive m e hm) ≤ key (.finite .positive n f hn) ↔ Within m e n f) ∧
      (key (.finite .negative n f hn) ≤ key (.finite .negative m e hm) ↔ Within m e n f) := by
  simp only [key, Prod.Lex.toLex_le_toLex, lt_irrefl, true_and, false_or, neg_lt_neg_iff,
    neg_inj, neg_le_neg_iff, Nat.cast_le]
  exact ⟨Iff.rfl, or_congr_right (and_congr_left' eq_comm)⟩

/-- Zero and all numbers below it are at most a number that is not negative. -/
theorem key_le_of_nonnegative {u v : UnpackedFloat} (hu : key u ≤ key (.zero .positive))
    (hv : v.isNaN = true ∨ Nonnegative v) : key u ≤ key v := by
  refine le_trans hu ?_
  rcases hv with hv | hv
  · cases v <;> first | exact le_refl _ | exact nomatch hv
  · cases hv <;> simp [key, Prod.Lex.toLex_le_toLex]

theorem key_negative_le {m : Nat} {e : Int} {hm : 0 < m} :
    key (.finite .negative m e hm) ≤ key (.zero .positive) := by
  simp [key, Prod.Lex.toLex_le_toLex]

/-- A magnitude that is at least that of a double. -/
theorem key_le_round {m mantissa : Nat} {e exponent : Int} (hcanonical : Canonical m e)
    (hmantissa : 0 < mantissa) (hleast : -1074 ≤ exponent) (hexponent : exponent ≤ e)
    (hle : m * 2 ^ (e - exponent).toNat ≤ mantissa) :
    key (.finite .positive m e hcanonical.positive) ≤ key (UnpackedFloat.unpack Format.binary64
      (UnpackedFloat.pack Format.binary64
        (UnpackedFloat.round Format.binary64 .positive mantissa exponent))) := by
  obtain ⟨n, f, hn, hround, hrounds⟩ := exists_round .positive hmantissa hleast
  rw [hround]
  rcases Int.lt_or_le 971 f with hlarge | hfits
  · rw [unpack_pack_infinite hlarge]
    simp [key, Prod.Lex.toLex_le_toLex]
  · rw [unpack_pack_finite hrounds.canonical hfits]
    exact key_le_iff_within.1.2 (hrounds.lower hcanonical hexponent hle)

/-- A negative number whose magnitude is at most that of a double. -/
theorem key_le_round_negative {m mantissa : Nat} {e exponent : Int} (hcanonical : Canonical m e)
    (hmantissa : 0 < mantissa) (hleast : -1074 ≤ exponent) (hexponent : exponent ≤ e)
    (hgreatest : e ≤ 971) (hle : mantissa ≤ m * 2 ^ (e - exponent).toNat) :
    key (.finite .negative m e hcanonical.positive) ≤ key (UnpackedFloat.unpack Format.binary64
      (UnpackedFloat.pack Format.binary64
        (UnpackedFloat.round Format.binary64 .negative mantissa exponent))) := by
  obtain ⟨n, f, hn, hround, hrounds⟩ := exists_round .negative hmantissa hleast
  have hwithin := hrounds.upper hcanonical hexponent hle
  have hfits : f ≤ 971 := by
    unfold Within at hwithin
    omega
  rw [hround, unpack_pack_finite hrounds.canonical hfits]
  exact key_le_iff_within.2.2 hwithin

theorem unpack_pack_unpack (x : Float) :
    UnpackedFloat.unpack Format.binary64 (UnpackedFloat.pack Format.binary64 x.toModel.unpack) =
      x.toModel.unpack :=
  congrArg (·.toModel.unpack) (pack_unpack x)

/-- The sum of two doubles of which the second one is positive. -/
theorem key_le_add_finite {sign : Sign} {m n : Nat} {e f : Int} (hm : Canonical m e)
    (hgreatest : e ≤ 971) (hn : Canonical n f) :
    key (.finite sign m e hm.positive) ≤ key (UnpackedFloat.unpack Format.binary64
      (UnpackedFloat.pack Format.binary64 (UnpackedFloat.add Format.binary64
        (.finite sign m e hm.positive) (.finite .positive n f hn.positive)))) := by
  have hleast : -1074 ≤ min e f := le_min hm.least_le hn.least_le
  rw [UnpackedFloat.add]
  unfold decreaseExponent UnpackedFloat.normalize
  dsimp only
  rw [Nat.shiftLeft_eq, Nat.shiftLeft_eq]
  have hfirst := Nat.mul_pos hm.positive (Nat.two_pow_pos (e - min e f).toNat)
  have hsecond := Nat.mul_pos hn.positive (Nat.two_pow_pos (f - min e f).toNat)
  generalize n * 2 ^ (f - min e f).toNat = second at hsecond
  cases sign with
  | positive =>
      dsimp only [Sign.apply]
      rw [Int.compare_eq_gt.2 (by omega)]
      exact key_le_round hm (by omega) hleast (min_le_left e f) (by omega)
  | negative =>
      dsimp only [Sign.apply]
      split
      · next hlt =>
          have hlt := Int.compare_eq_lt.1 hlt
          exact key_le_round_negative hm (by omega) hleast (min_le_left e f) hgreatest (by omega)
      · exact key_le_of_nonnegative key_negative_le (Nonnegative.zero .positive).unpack_pack
      · exact key_le_of_nonnegative key_negative_le
          (nonnegative_roundWithAccuracy ..).unpack_pack

/-- Adding a number that is not negative does not lead below the other one. -/
theorem key_le_add (x y : Float) (hy : Nonnegative y.toModel.unpack) :
    key x.toModel.unpack ≤ key (x + y).toModel.unpack := by
  change key x.toModel.unpack ≤ key (UnpackedFloat.unpack Format.binary64
    (UnpackedFloat.pack Format.binary64
      (UnpackedFloat.add Format.binary64 x.toModel.unpack y.toModel.unpack)))
  have hsame := congrArg key (unpack_pack_unpack x)
  generalize hu : x.toModel.unpack = u at hsame ⊢
  generalize hv : y.toModel.unpack = v at hy ⊢
  cases u with
  | notANumber => exact le_of_eq hsame.symm
  | zero s =>
      apply key_le_of_nonnegative (le_refl _)
      cases hy with
      | zero t => cases s <;> cases t <;> exact (Nonnegative.zero _).unpack_pack
      | infinity => exact Nonnegative.infinity.unpack_pack
      | finite n f hn => exact (Nonnegative.finite n f hn).unpack_pack
  | infinity s =>
      cases hy with
      | zero | finite => exact le_of_eq hsame.symm
      | infinity =>
          cases s with
          | negative => exact key_le_of_nonnegative (by decide) (.inl rfl)
          | positive => exact le_of_eq hsame.symm
  | finite s m e hm =>
      obtain ⟨hcanonical, hgreatest⟩ := canonical_of_unpack hu
      cases hy with
      | zero => exact le_of_eq hsame.symm
      | infinity =>
          change key (.finite s m e hm) ≤ key (UnpackedFloat.unpack Format.binary64
            (packedInfinity Format.binary64 .positive))
          rw [unpack_packedInfinity]
          cases s <;> simp [key, Prod.Lex.toLex_le_toLex]
      | finite n f hn => exact key_le_add_finite hcanonical hgreatest (canonical_of_unpack hv).1

theorem le_add {x y : Float} (hy : atMost Arith.zero y = true) (hdefined : isNaN (x + y) = false) :
    atMost x (x + y) = true := by
  have hx := (steady.add_spreads.defined hdefined).1
  exact (atMost_iff_key hx hdefined).2 (key_le_add x y (atMost_zero_iff.1 hy))

/-! ### Differences -/

/-- A difference is opposite to a sum with the opposite number. -/
theorem negated_neg_add (u v : UnpackedFloat) :
    Negated (UnpackedFloat.add Format.binary64 u.neg v) (UnpackedFloat.sub Format.binary64 u v) := by
  cases u with
  | notANumber => exact .neg rfl
  | infinity s =>
      cases v with
      | infinity t => cases s <;> cases t <;> exact .neg rfl
      | notANumber => exact .neg rfl
      | zero | finite => cases s <;> exact .neg rfl
  | zero s =>
      cases v with
      | notANumber => exact .neg rfl
      | zero t => cases s <;> cases t <;> exact .zeros _ _
      | infinity | finite => exact .neg rfl
  | finite s m e hm =>
      cases v with
      | notANumber | infinity => exact .neg rfl
      | zero => cases s <;> exact .neg rfl
      | finite t n f hn =>
          have hsign (k : Int) : s.apply k = -(-s).apply k := by
            cases s with
            | negative => rfl
            | positive => exact (Int.neg_neg k).symm
          rw [UnpackedFloat.sub, UnpackedFloat.neg, UnpackedFloat.add]
          dsimp only
          rw [hsign, ← neg_add']
          exact negated_normalize ..

theorem key_of_negated {u v : UnpackedFloat} (hnegated : Negated u v) : key v = -key u := by
  cases hnegated with
  | zeros => rfl
  | neg hneg =>
      rw [hneg]
      cases u with
      | notANumber | zero => rfl
      | infinity sign => cases sign <;> rfl
      | finite sign =>
          cases sign with
          | positive => rfl
          | negative => simp only [UnpackedFloat.neg, key, ← toLex_neg, Prod.neg_mk, neg_neg]

theorem sub_le {x y : Float} (hy : atMost Arith.zero y = true) (hdefined : isNaN (x - y) = false) :
    atMost (x - y) x = true := by
  have hx := (steady.sub_spreads.defined hdefined).1
  have hsum : Negated (-x + y).toModel.unpack (x - y).toModel.unpack := by
    have hnegated := negated_neg_add x.toModel.unpack y.toModel.unpack
    rw [← unpack_neg] at hnegated
    exact negated_unpack_pack hnegated
  rw [atMost_iff_key hdefined hx]
  calc key (x - y).toModel.unpack
      = -key (-x + y).toModel.unpack := key_of_negated hsum
    _ ≤ -key (-x).toModel.unpack := neg_le_neg (key_le_add (-x) y (atMost_zero_iff.1 hy))
    _ = key x.toModel.unpack := by rw [key_of_negated (.neg (unpack_neg x)), neg_neg]

theorem widening : Widening Float where
  toSteady := steady
  sqrt_notBelow x := notBelowZero_pack (nonnegative_sqrt x.toModel.unpack)
  mul_notBelow _ _ hx hy :=
    notBelowZero_pack (nonnegative_mul (atMost_zero_iff.1 hx) (atMost_zero_iff.1 hy))
  le_add _ _ := le_add
  sub_le _ _ := sub_le

end Double

end Backtest
