import Backtest.Proofs.Decimal.Quotient

/-!
# One half more

Windows are rounded by adding one half to a number and taking the floor.  The sum of a finite double
and one half is finite again: below the largest double there is room for it, and the largest one
swallows it (`fits_add_half`).  Doubles are unpacked into a sign, a mantissa and an exponent here,
and `exists_finite_ofFloat` leads back from their bits to the form that the program reads.
-/

namespace Backtest.Double

open Float.Model Float.Model.UnpackedFloat

/-! ## Rounding -/

/-- An unpacked double that is finite once packed. -/
def fits : UnpackedFloat → Bool
  | .finite _ _ exponent _ => decide (exponent ≤ 971)
  | .zero _ => true
  | _ => false

theorem mantissa_shift (count : Nat) (em : ExtendedMantissa) :
    (em >>> count).mantissa = em.mantissa / 2 ^ count := by
  induction count with
  | zero => exact (Nat.div_one em.mantissa).symm
  | succ count ih =>
      change (em >>> count).mantissa / 2 = _
      rw [ih, Nat.div_div_eq_div_mul, Nat.pow_succ]

theorem roundedMantissa_le (em : ExtendedMantissa) : em.roundedMantissa ≤ em.mantissa + 1 := by
  unfold ExtendedMantissa.roundedMantissa Accuracy.roundToNearestEven
  split <;> omega

theorem targetExponent_eq (total : Int) :
    Format.binary64.targetExponent total = max (total - 53) (-1074) := rfl

theorem fits_roundWithAccuracy (sign : Sign) {mantissa : Nat} {exponent : Int}
    (hmantissa : 0 < mantissa) (hexponent : exponent ≤ 971)
    (htarget : exponent ≤ Format.binary64.targetExponent (totalExponent mantissa exponent))
    (hbound : mantissa < (2 ^ 53 - 1) * 2 ^ (971 - exponent).toNat) :
    fits (roundWithAccuracy Format.binary64 sign mantissa exponent .exact) = true := by
  have hfloor := Nat.log2_self_le (Nat.ne_of_gt hmantissa)
  have hceiling := Nat.lt_log2_self (n := mantissa)
  rw [targetExponent_eq, totalExponent] at htarget
  unfold roundWithAccuracy shiftToTargetExponent shiftToExponent
  dsimp only
  generalize hshift : (Format.binary64.targetExponent (totalExponent mantissa exponent) -
    exponent).toNat = shift
  rw [targetExponent_eq, totalExponent] at hshift
  have hrounded :=
    roundedMantissa_le (ExtendedMantissa.ofMantissaAndAccuracy mantissa .exact >>> shift)
  rw [mantissa_shift] at hrounded
  change _ ≤ mantissa / 2 ^ shift + 1 at hrounded
  generalize (ExtendedMantissa.ofMantissaAndAccuracy mantissa .exact >>> shift).roundedMantissa =
    rounded at hrounded
  split
  · rfl
  · apply decide_eq_true
    rw [targetExponent_eq, totalExponent]
    have hlog : mantissa.log2 ≤ 52 + (971 - exponent).toNat := by
      apply log2_le_of_lt
      calc mantissa < (2 ^ 53 - 1) * 2 ^ (971 - exponent).toNat := hbound
        _ ≤ 2 ^ 53 * 2 ^ (971 - exponent).toNat := Nat.mul_le_mul_right _ (Nat.sub_le _ _)
        _ = 2 ^ (52 + (971 - exponent).toNat + 1) := by
          rw [← Nat.pow_add, Nat.add_right_comm]
    by_cases hlast : exponent + shift = 971
    · -- The mantissa may not be carried beyond the largest exponent.
      have hquotient : mantissa / 2 ^ shift < 2 ^ 53 - 1 := by
        have hplace : shift = (971 - exponent).toNat := by omega
        rw [Nat.div_lt_iff_lt_mul (Nat.two_pow_pos _), hplace]
        exact hbound
      have hcarry : rounded.log2 ≤ 52 := log2_le_of_lt (by omega)
      omega
    · have hquotient : mantissa / 2 ^ shift < 2 ^ 53 := by
        rw [Nat.div_lt_iff_lt_mul (Nat.two_pow_pos _), ← Nat.pow_add]
        exact Nat.lt_of_lt_of_le hceiling (Nat.pow_le_pow_right (by decide) (by omega))
      have hcarry : rounded.log2 ≤ 53 := log2_le_of_lt (by omega)
      omega

theorem log2_shiftLeft {n : Nat} (hn : n ≠ 0) (places : Nat) :
    (n <<< places).log2 = n.log2 + places := by
  rw [Nat.shiftLeft_eq]
  have hpositive := Nat.two_pow_pos places
  rw [Nat.log2_eq_iff (Nat.mul_ne_zero hn (Nat.ne_of_gt hpositive)), Nat.add_right_comm,
    Nat.pow_add, Nat.pow_add]
  exact ⟨Nat.mul_le_mul_right _ (Nat.log2_self_le hn),
    Nat.mul_lt_mul_of_pos_right Nat.lt_log2_self hpositive⟩

theorem fits_round (sign : Sign) {mantissa : Nat} {exponent : Int} (hmantissa : 0 < mantissa)
    (hexponent : exponent ≤ 971)
    (hbound : mantissa < (2 ^ 53 - 1) * 2 ^ (971 - exponent).toNat) :
    fits (UnpackedFloat.round Format.binary64 sign mantissa exponent) = true := by
  unfold UnpackedFloat.round decreaseExponent
  dsimp only
  generalize hraised : (exponent - Format.binary64.targetExponent
    (totalExponent mantissa exponent)).toNat = raised
  rw [targetExponent_eq, totalExponent] at hraised
  have hlog := log2_shiftLeft (Nat.ne_of_gt hmantissa) raised
  have hplace : (971 - (exponent - raised)).toNat = (971 - exponent).toNat + raised := by omega
  apply fits_roundWithAccuracy
  · rw [Nat.shiftLeft_eq]
    exact Nat.mul_pos hmantissa (Nat.two_pow_pos _)
  · omega
  · rw [targetExponent_eq, totalExponent, hlog]
    omega
  · rw [hplace, Nat.shiftLeft_eq, Nat.pow_add, ← Nat.mul_assoc]
    exact Nat.mul_lt_mul_of_pos_right hbound (Nat.two_pow_pos _)

theorem fits_normalize {mantissa exponent : Int} (zeroSign : Sign) (room : Nat)
    (hroom : exponent + room = 971) (hbound : mantissa.natAbs < (2 ^ 53 - 1) * 2 ^ room) :
    fits (UnpackedFloat.normalize Format.binary64 mantissa exponent zeroSign) = true := by
  have hexponent : exponent ≤ 971 := by omega
  have hplace : (971 - exponent).toNat = room := by omega
  rw [← hplace] at hbound
  unfold UnpackedFloat.normalize
  split
  · next hsign =>
      have hnegative := Int.compare_eq_lt.1 hsign
      exact fits_round _ (by omega) hexponent (by omega)
  · rfl
  · next hsign =>
      have hpositive := Int.compare_eq_gt.1 hsign
      exact fits_round _ (by omega) hexponent (by omega)

/-! ## The sum -/

/-- The largest double is its own sum with one half. -/
theorem fits_greatest_add_half : fits (add Format.binary64
    (.finite .positive (2 ^ 53 - 1) 971 (by decide)) (.finite .positive (2 ^ 52) (-53) (by decide))) =
      true := by
  decide +kernel

/-- One half does not push any other sum beyond the largest double. -/
theorem sum_lt {mantissa scale room : Nat} (hmantissa : mantissa ≤ 2 ^ 53 - 1)
    (hscale : scale ≤ 2 * room) (hroom : 2 ^ 53 ≤ room)
    (hgreatest : mantissa = 2 ^ 53 - 1 → scale ≤ room) :
    mantissa * scale + 2 ^ 52 < (2 ^ 53 - 1) * (2 * room) := by
  by_cases hfull : mantissa = 2 ^ 53 - 1
  · have hsmall := hgreatest hfull
    rw [hfull]
    omega
  · have hproduct : mantissa * scale ≤ (2 ^ 53 - 2) * (2 * room) :=
      Nat.mul_le_mul (by omega) hscale
    omega

theorem fits_add_half {sign : Sign} {mantissa : Nat} {exponent : Int} {hpositive : 0 < mantissa}
    (hmantissa : mantissa < 2 ^ 53) (hexponent : exponent ≤ 971) :
    fits (add Format.binary64 (.finite sign mantissa exponent hpositive)
      (.finite .positive (2 ^ 52) (-53) (by decide))) = true := by
  by_cases hgreatest : sign = .positive ∧ mantissa = 2 ^ 53 - 1 ∧ exponent = 971
  · obtain ⟨rfl, rfl, rfl⟩ := hgreatest
    exact fits_greatest_add_half
  · rw [UnpackedFloat.add]
    unfold decreaseExponent
    dsimp only
    obtain ⟨last, hlast⟩ : ∃ last : Nat, last = 1023 := ⟨_, rfl⟩
    by_cases hsmall : exponent ≤ -53
    · rw [Int.min_eq_left hsmall, Int.sub_self, Int.toNat_zero, Nat.shiftLeft_zero,
        Nat.shiftLeft_eq]
      have hroom : 2 ^ (-53 - exponent).toNat ≤ 2 ^ ((-53 - exponent).toNat + last) :=
        Nat.pow_le_pow_right (by decide) (Nat.le_add_right _ _)
      have hdouble : 2 ^ ((-53 - exponent).toNat + last + 1) =
          2 * 2 ^ ((-53 - exponent).toNat + last) := Nat.pow_succ'
      have hunit := Nat.two_pow_pos (-53 - exponent).toNat
      refine fits_normalize _ ((-53 - exponent).toNat + last + 1) (by omega) ?_
      rw [hdouble]
      generalize 2 ^ ((-53 - exponent).toNat + last) = room at hroom ⊢
      generalize 2 ^ (-53 - exponent).toNat = unit at hroom hunit ⊢
      cases sign <;> simp only [Sign.apply] <;> omega
    · have hlarge : -53 ≤ exponent := by omega
      rw [Int.min_eq_right hlarge, Int.sub_self, Int.toNat_zero, Nat.shiftLeft_zero,
        Nat.shiftLeft_eq]
      have hdouble : 2 ^ (last + 1) = 2 * 2 ^ last := Nat.pow_succ'
      have hscale : 2 ^ (exponent - -53).toNat ≤ 2 ^ (last + 1) :=
        Nat.pow_le_pow_right (by decide) (by omega)
      have hroom : 2 ^ 53 ≤ 2 ^ last := Nat.pow_le_pow_right (by decide) (by omega)
      refine fits_normalize _ (last + 1) (by omega) ?_
      rw [hdouble] at hscale ⊢
      have hfull : sign = .positive → mantissa = 2 ^ 53 - 1 →
          2 ^ (exponent - -53).toNat ≤ 2 ^ last := fun hsign hmax =>
        Nat.pow_le_pow_right (by decide) (by
          have hne : exponent ≠ 971 := fun heq => hgreatest ⟨hsign, hmax, heq⟩
          omega)
      have hproduct : mantissa * 2 ^ (exponent - -53).toNat ≤ (2 ^ 53 - 1) * (2 * 2 ^ last) :=
        Nat.mul_le_mul (by omega) hscale
      generalize 2 ^ last = room at hscale hroom hfull hproduct ⊢
      cases sign with
      | negative =>
          have hpositive := Nat.mul_pos hpositive (Nat.two_pow_pos (exponent - -53).toNat)
          simp only [Sign.apply]
          omega
      | positive =>
          have hsum := sum_lt (by omega) hscale hroom (hfull rfl)
          simp only [Sign.apply]
          omega

/-! ## Bits -/

/-- What a finite double is unpacked to. -/
inductive Unpacked : UnpackedFloat → Prop
  | zero (sign : Sign) : Unpacked (.zero sign)
  | finite (sign : Sign) (mantissa : Nat) (exponent : Int) (hpositive : 0 < mantissa)
      (hmantissa : mantissa < 2 ^ 53) (hexponent : exponent ≤ 971) :
      Unpacked (.finite sign mantissa exponent hpositive)

theorem unpacked_of_isFinite {bits : BitVec Format.binary64.numBits}
    (hfinite : (UnpackedFloat.unpack Format.binary64 bits).isFinite = true) :
    Unpacked (UnpackedFloat.unpack Format.binary64 bits) := by
  have hbias : ((Format.binary64.exponentBias : Int) +
      (Format.binary64.mantissaBitsWithoutImplicit : Int)) = 1075 := rfl
  have hexponent : (unpackExponent bits).toNat < 2 ^ 11 := (unpackExponent bits).isLt
  have hmantissa : (unpackMantissa bits).toNat < 2 ^ 52 := (unpackMantissa bits).isLt
  unfold UnpackedFloat.unpack at hfinite ⊢
  dsimp only at hfinite ⊢
  rw [hbias]
  split at hfinite
  · split at hfinite <;> cases hfinite
  · next hnormal =>
      have hbelow : (unpackExponent bits).toNat ≠ 2047 := fun heq =>
        hnormal (BitVec.eq_of_toNat_eq heq)
      rw [if_neg hnormal]
      split
      · next hzero =>
          rw [hzero]
          split
          · exact .zero _
          · exact .finite _ _ _ _ (by omega) (by decide)
      · refine .finite _ _ _ _ ?_ (by omega)
        exact (1#1 ++ unpackMantissa bits).isLt

theorem unpackSign_packComponents {spec : Format} {sign exponent mantissa} :
    unpackSign (packComponents spec sign exponent mantissa) = sign.toBitVec := by
  ext i hi
  simp [unpackSign, packComponents, BitVec.getLsbD_append, Nat.add_assoc, hi]

theorem unpackExponent_pack {u : UnpackedFloat} (hfits : fits u = true) :
    unpackExponent (UnpackedFloat.pack Format.binary64 u) ≠ -1#11 := by
  have hbias : (Format.binary64.exponentBias : Int) +
      (Format.binary64.mantissaBitsWithoutImplicit : Int) = 1075 := rfl
  have hones : (-1#11).toNat = 2047 := by decide
  cases u with
  | notANumber => exact nomatch hfits
  | infinity sign => exact nomatch hfits
  | zero sign =>
      rw [UnpackedFloat.pack, packedZero, unpackExponent_packComponents]
      decide
  | finite sign mantissa exponent hpositive =>
      have hexponent : exponent ≤ 971 := of_decide_eq_true hfits
      rw [UnpackedFloat.pack]
      dsimp only
      rw [Int.add_assoc, hbias]
      have hbelow : (exponent + 1075).toNat ≤ 2046 := by omega
      rw [if_neg (Nat.not_le.2 (Nat.lt_of_le_of_lt (Nat.succ_le_succ hbelow) (by decide)))]
      split
      · rw [unpackExponent_packComponents]
        intro heq
        have htoNat := congrArg BitVec.toNat heq
        rw [hones, BitVec.toNat_ofNat] at htoNat
        change (exponent + 1075).toNat % 2 ^ 11 = 2047 at htoNat
        omega
      · rw [unpackExponent_packComponents]
        decide

theorem exists_finite_ofFloat {x : Float}
    (hexponent : @unpackExponent Format.binary64 x.toModel.toBits.toBitVec ≠ -1#11) :
    ∃ negative mantissa exponent, Binary.ofFloat x = .finite negative mantissa exponent := by
  have hfield : x.toBits.toNat / Nat.pow 2 52 % Nat.pow 2 11 ≠ 2047 := by
    intro heq
    apply hexponent
    apply BitVec.eq_of_toNat_eq
    rw [unpackExponent, BitVec.toNat_cast, BitVec.extractLsb_toNat, Nat.shiftRight_eq_div_pow]
    exact heq
  unfold Binary.ofFloat
  dsimp only
  rw [if_neg hfield]
  split
  · exact ⟨_, _, _, rfl⟩
  · exact ⟨_, _, _, rfl⟩

end Backtest.Double
