import Backtest.Proofs.Decimal.Rounding
import Backtest.Proofs.Decimal.Steady

/-!
# Opposite numbers

A difference taken the other way round is the opposite number, and so is the product or the quotient
of an opposite number.  Numbers are opposite here if one has the value of the other one negated,
whatever the signs of zeros, or if both are undefined.

Doubles are symmetric in this sense (`Double.symmetric`): an operation finds the sign of its result
apart from the magnitude, and rounds the magnitude alone.  Exact numbers are symmetric, too
(`Exact.symmetric`).
-/

namespace Backtest

open Arith

/-- One number is the other one negated, or neither is defined. -/
def Opposite {α : Type} [Arith α] (x y : α) : Prop :=
  (isNaN x = true ∧ isNaN y = true) ∨ same y (-x) = true

structure SignSymmetric (α : Type) [Arith α] : Prop where
  zero_opposite : Opposite (zero : α) zero
  sub_opposite : ∀ x y : α, Opposite (x - y) (y - x)
  mul_opposite : ∀ x y k : α, Opposite x y → Opposite (x * k) (y * k)
  div_opposite : ∀ x y k : α, Opposite x y → Opposite (x / k) (y / k)

/-! ## Doubles -/

namespace Double

open Float.Model Float.Model.UnpackedFloat

/-- An unpacked double is the other one negated, or both are zeros. -/
inductive Negated : UnpackedFloat → UnpackedFloat → Prop
  | neg {u v : UnpackedFloat} (hneg : v = u.neg) : Negated u v
  | zeros (first second : Sign) : Negated (.zero first) (.zero second)

theorem neg_sign_mul (s t : Sign) : -s * t = -(s * t) := by
  cases s <;> cases t <;> rfl

theorem neg_sign_div (s t : Sign) : -s / t = -(s / t) := by
  cases s <;> cases t <;> rfl

/-! ### Rounding -/

theorem roundWithAccuracy_neg (sign : Sign) (mantissa : Nat) (exponent : Int)
    (accuracy : Accuracy) :
    roundWithAccuracy Format.binary64 (-sign) mantissa exponent accuracy =
      (roundWithAccuracy Format.binary64 sign mantissa exponent accuracy).neg := by
  simp only [roundWithAccuracy]
  split <;> rfl

theorem negated_normalize (mantissa exponent : Int) (sign : Sign) :
    Negated (UnpackedFloat.normalize Format.binary64 mantissa exponent sign)
      (UnpackedFloat.normalize Format.binary64 (-mantissa) exponent sign) := by
  rcases Int.lt_trichotomy mantissa 0 with hlt | rfl | hgt
  · apply Negated.neg
    unfold UnpackedFloat.normalize
    rw [Int.compare_eq_lt.2 hlt, Int.compare_eq_gt.2 (by omega)]
    exact roundWithAccuracy_neg .negative ..
  · exact .zeros sign sign
  · apply Negated.neg
    unfold UnpackedFloat.normalize
    rw [Int.compare_eq_gt.2 hgt, Int.compare_eq_lt.2 (by omega), Int.neg_neg]
    exact roundWithAccuracy_neg .positive ..

/-! ### Operations -/

theorem negated_sub (u v : UnpackedFloat) :
    Negated (UnpackedFloat.sub Format.binary64 u v) (UnpackedFloat.sub Format.binary64 v u) := by
  cases u with
  | notANumber => cases v <;> exact .neg rfl
  | infinity s =>
      cases v with
      | infinity t => cases s <;> cases t <;> exact .neg rfl
      | notANumber | zero | finite => exact .neg rfl
  | zero s =>
      cases v with
      | notANumber => exact .neg rfl
      | zero t => cases s <;> cases t <;> exact .zeros _ _
      | infinity t | finite t => cases t <;> exact .neg rfl
  | finite s m e hm =>
      cases v with
      | notANumber | zero => exact .neg rfl
      | infinity t => cases t <;> exact .neg rfl
      | finite t n f hn =>
          rw [UnpackedFloat.sub, UnpackedFloat.sub, Int.min_comm f e]
          dsimp only
          rw [← Int.neg_sub (s.apply _)]
          exact negated_normalize ..

theorem negated_mul {u v : UnpackedFloat} (huv : Negated u v) (k : UnpackedFloat) :
    Negated (UnpackedFloat.mul Format.binary64 u k) (UnpackedFloat.mul Format.binary64 v k) := by
  cases huv with
  | neg hneg =>
      rw [hneg]
      apply Negated.neg
      cases u <;> cases k <;>
        simp only [UnpackedFloat.neg, UnpackedFloat.mul, neg_sign_mul, roundWithAccuracy_neg]
  | zeros =>
      cases k with
      | notANumber | infinity => exact .neg rfl
      | zero | finite => exact .zeros _ _

theorem negated_div {u v : UnpackedFloat} (huv : Negated u v) (k : UnpackedFloat) :
    Negated (UnpackedFloat.div Format.binary64 u k) (UnpackedFloat.div Format.binary64 v k) := by
  cases huv with
  | neg hneg =>
      rw [hneg]
      apply Negated.neg
      cases u <;> cases k <;>
        simp only [UnpackedFloat.neg, UnpackedFloat.div, neg_sign_div, roundWithAccuracy_neg]
  | zeros =>
      cases k with
      | notANumber | zero => exact .neg rfl
      | infinity | finite => exact .zeros _ _

/-! ### Bits -/

/-- The sign is a bit of its own. -/
theorem unpack_packComponents_neg (sign : Sign) (exponent : BitVec 11) (mantissa : BitVec 52) :
    UnpackedFloat.unpack Format.binary64 (packComponents Format.binary64 (-sign) exponent mantissa) =
      (UnpackedFloat.unpack Format.binary64
        (packComponents Format.binary64 sign exponent mantissa)).neg := by
  rw [unpack_packComponents, unpack_packComponents]
  split
  · split <;> rfl
  · split
    · split <;> rfl
    · rfl

theorem unpack_pack_neg (u : UnpackedFloat) :
    UnpackedFloat.unpack Format.binary64 (UnpackedFloat.pack Format.binary64 u.neg) =
      (UnpackedFloat.unpack Format.binary64 (UnpackedFloat.pack Format.binary64 u)).neg := by
  cases u with
  | notANumber => rfl
  | infinity sign | zero sign => exact unpack_packComponents_neg sign _ _
  | finite sign mantissa exponent hpositive =>
      simp only [UnpackedFloat.neg, UnpackedFloat.pack]
      split
      · exact unpack_packComponents_neg sign _ _
      · split
        · exact unpack_packComponents_neg sign _ _
        · exact unpack_packComponents_neg sign _ _

theorem negated_unpack_pack {u v : UnpackedFloat} (huv : Negated u v) :
    Negated (Float.ofModel (Float.Model.pack u)).toModel.unpack
      (Float.ofModel (Float.Model.pack v)).toModel.unpack := by
  cases huv with
  | neg hneg =>
      rw [hneg]
      exact .neg (unpack_pack_neg u)
  | zeros first second =>
      have hzero (sign : Sign) :
          (Float.ofModel (Float.Model.pack (.zero sign))).toModel.unpack = .zero sign :=
        unpack_packedZero
      rw [hzero, hzero]
      exact .zeros first second

theorem unpack_neg (x : Float) : (-x).toModel.unpack = x.toModel.unpack.neg := by
  calc (-x).toModel.unpack
      = UnpackedFloat.unpack Format.binary64
          (UnpackedFloat.pack Format.binary64 x.toModel.unpack.neg) := rfl
    _ = (Float.ofModel (Float.Model.pack x.toModel.unpack)).toModel.unpack.neg := unpack_pack_neg _
    _ = x.toModel.unpack.neg := by rw [pack_unpack]

theorem opposite_neg (x : Float) : Opposite x (-x) := by
  rcases ordered.restsAt_self (-x) with hundefined | hsame
  · have hx : isNaN x = true := by
      change x.toModel.unpack.isNaN = true
      have hneg : x.toModel.unpack.neg = .notANumber := by
        rw [← unpack_neg, unpack_of_undefined hundefined]
      cases hu : x.toModel.unpack with
      | notANumber => rfl
      | infinity | zero | finite =>
          rw [hu] at hneg
          exact nomatch hneg
    exact .inl ⟨hx, hundefined⟩
  · exact .inr hsame

theorem negated_of_opposite {x y : Float} (hopposite : Opposite x y) :
    Negated x.toModel.unpack y.toModel.unpack := by
  rcases hopposite with ⟨hx, hy⟩ | hsame
  · rw [unpack_of_undefined hx, unpack_of_undefined hy]
    exact .neg rfl
  · rcases unpack_eq_of_same hsame with rfl | ⟨hy, hx⟩
    · exact .neg (unpack_neg x)
    · obtain ⟨second, hy⟩ := unpack_of_same_zero hy
      obtain ⟨sign, hx⟩ := unpack_of_same_zero hx
      rw [unpack_neg] at hx
      cases hu : x.toModel.unpack with
      | zero first =>
          rw [hy]
          exact .zeros first second
      | notANumber | infinity | finite =>
          rw [hu] at hx
          exact nomatch hx

theorem opposite_of_negated {x y : Float} (hnegated : Negated x.toModel.unpack y.toModel.unpack) :
    Opposite x y := by
  generalize hu : x.toModel.unpack = u at hnegated
  generalize hv : y.toModel.unpack = v at hnegated
  cases hnegated with
  | neg hneg =>
      have hy : y = -x := by
        apply eq_of_unpack
        rw [unpack_neg, hv, hneg, hu]
      rw [hy]
      exact opposite_neg x
  | zeros first second =>
      have hx : (-x).toModel.unpack = .zero (-first) := by
        rw [unpack_neg, hu]
        rfl
      exact .inr (ordered.same_trans (same_zero hv) (ordered.same_symm (same_zero hx)))

/-- What holds of the unpacked results holds of the doubles that they are packed into. -/
theorem opposite_pack {u v : UnpackedFloat} (hnegated : Negated u v) :
    Opposite (Float.ofModel (Float.Model.pack u)) (Float.ofModel (Float.Model.pack v)) :=
  opposite_of_negated (negated_unpack_pack hnegated)

theorem symmetric : SignSymmetric Float where
  zero_opposite := .inr (by decide +kernel)
  sub_opposite x y := opposite_pack (negated_sub x.toModel.unpack y.toModel.unpack)
  mul_opposite _ _ k hxy := opposite_pack (negated_mul (negated_of_opposite hxy) k.toModel.unpack)
  div_opposite _ _ k hxy := opposite_pack (negated_div (negated_of_opposite hxy) k.toModel.unpack)

end Double

/-! ## Exact numbers -/

namespace Exact

theorem opposite_finite {r s : Rat} (heq : s = -r) : Opposite (finite r) (finite s) :=
  .inr (beq_iff_eq.2 heq)

theorem opposite_undefined : Opposite undefined undefined := .inl ⟨rfl, rfl⟩

/-- Opposite exact numbers are both undefined, or one is the other one negated. -/
theorem eq_of_opposite {x y : Exact} (hopposite : Opposite x y) :
    (x = undefined ∧ y = undefined) ∨ ∃ r, x = finite r ∧ y = finite (-r) := by
  cases x with
  | undefined =>
      cases y with
      | undefined => exact .inl ⟨rfl, rfl⟩
      | finite s => exact hopposite.elim (fun h => nomatch h.2) nofun
  | finite r =>
      rcases hopposite with ⟨hx, _⟩ | hsame
      · exact nomatch hx
      · exact .inr ⟨r, rfl, eq_finite_of_same hsame⟩

theorem symmetric : SignSymmetric Exact where
  zero_opposite := opposite_finite (by decide +kernel)
  sub_opposite x y := by
    cases x with
    | undefined => cases y <;> exact opposite_undefined
    | finite r =>
        cases y with
        | undefined => exact opposite_undefined
        | finite s => exact opposite_finite (neg_sub r s).symm
  mul_opposite x y k hxy := by
    rcases eq_of_opposite hxy with ⟨rfl, rfl⟩ | ⟨r, rfl, rfl⟩
    · exact opposite_undefined
    · cases k with
      | undefined => exact opposite_undefined
      | finite t => exact opposite_finite (neg_mul r t)
  div_opposite x y k hxy := by
    change Opposite (if k = finite 0 then undefined else lift (· / ·) x k)
      (if k = finite 0 then undefined else lift (· / ·) y k)
    split
    · exact opposite_undefined
    · rcases eq_of_opposite hxy with ⟨rfl, rfl⟩ | ⟨r, rfl, rfl⟩
      · exact opposite_undefined
      · cases k with
        | undefined => exact opposite_undefined
        | finite t => exact opposite_finite (neg_div t r)

end Exact

end Backtest
