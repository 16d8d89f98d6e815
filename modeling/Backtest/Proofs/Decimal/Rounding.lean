import Backtest.Proofs.Decimal.Faithful
import Backtest.Proofs.Decimal.Half

/-!
# Rounding to the nearest double

A double that is not zero and finite has one canonical form: a mantissa below `2 ^ 53` and an
exponent from `-1074` on, with a mantissa from `2 ^ 52` on unless the exponent is the least one.
Rounding gives a canonical form, and does so faithfully: what is at least a double is rounded to at
least that double, and what is at most a double to at most that double (`exists_round`).  Packing
keeps a canonical form, or gives an infinity where its exponent is too large
(`unpack_pack_finite`, `unpack_pack_infinite`).
-/

namespace Backtest.Double

open Float.Model Float.Model.UnpackedFloat

/-- The mantissa and the exponent of a double, if there were no largest exponent. -/
structure Canonical (mantissa : Nat) (exponent : Int) : Prop where
  positive : 0 < mantissa
  lt_carry : mantissa < 2 ^ 53
  least_le : -1074 ≤ exponent
  normal : -1074 < exponent → 2 ^ 52 ≤ mantissa

/-- Canonical forms compare by their exponents first. -/
def Within (m : Nat) (e : Int) (n : Nat) (f : Int) : Prop := e < f ∨ e = f ∧ m ≤ n

/-- What becomes of a rounded mantissa: it is kept, or carried beyond its places. -/
inductive Carried (rounded : Nat) (target : Int) : Nat → Int → Prop
  | kept (hcanonical : Canonical rounded target) : Carried rounded target rounded target
  | moved (hcarry : rounded = 2 ^ 53) (hleast : -1074 ≤ target) :
      Carried rounded target (2 ^ 52) (target + 1)

/-- A canonical form on the same side of every other one as a magnitude. -/
structure RoundsTo (mantissa : Nat) (exponent : Int) (n : Nat) (f : Int) : Prop where
  canonical : Canonical n f
  faithful : Faithful (mantissa * 2 ^ exponent) (n * 2 ^ f)

/-! ## The mantissa -/

/-- The mantissa that is left when its last places are rounded away. -/
def roundedAt (mantissa places : Nat) : Nat :=
  (ExtendedMantissa.ofMantissaAndAccuracy mantissa .exact >>> places).roundedMantissa

theorem le_roundedAt (mantissa places : Nat) :
    mantissa / 2 ^ places ≤ roundedAt mantissa places := by
  have hshift := mantissa_shift places (.ofMantissaAndAccuracy mantissa .exact)
  change _ = mantissa / 2 ^ places at hshift
  rw [← hshift, roundedAt]
  unfold ExtendedMantissa.roundedMantissa Accuracy.roundToNearestEven
  split <;> omega

theorem roundedAt_le (mantissa places : Nat) :
    roundedAt mantissa places ≤ mantissa / 2 ^ places + 1 := by
  have hshift := mantissa_shift places (.ofMantissaAndAccuracy mantissa .exact)
  change _ = mantissa / 2 ^ places at hshift
  rw [← hshift]
  exact roundedMantissa_le _

/-- Places that are all zero are dropped without a trace. -/
theorem shift_of_mul (n places : Nat) :
    ExtendedMantissa.ofMantissaAndAccuracy (n * 2 ^ places) .exact >>> places =
      ⟨n, false, false⟩ := by
  induction places generalizing n with
  | zero => rw [Nat.pow_zero, Nat.mul_one]; rfl
  | succ places ih =>
      have hdouble : n * 2 ^ (places + 1) = 2 * n * 2 ^ places := by
        rw [Nat.pow_succ, Nat.mul_comm 2 n, Nat.mul_assoc, Nat.mul_comm 2]
      rw [hdouble]
      change (ExtendedMantissa.ofMantissaAndAccuracy (2 * n * 2 ^ places) .exact >>>
        places).shiftRightOne = _
      rw [ih]
      simp [ExtendedMantissa.shiftRightOne]

theorem roundedAt_mul (n places : Nat) : roundedAt (n * 2 ^ places) places = n := by
  rw [roundedAt, shift_of_mul]
  rfl

section Mantissa

variable {mantissa : Nat} {exponent target : Int}

/-- A mantissa fills its places once it is brought to its target exponent. -/
theorem quotient_bounds (hmantissa : 0 < mantissa) (hleast : -1074 ≤ exponent)
    (htarget : target = Format.binary64.targetExponent (totalExponent mantissa exponent))
    (hexponent : exponent ≤ target) :
    Canonical (mantissa / 2 ^ (target - exponent).toNat) target := by
  rw [targetExponent_eq, totalExponent] at htarget
  generalize hplaces : (target - exponent).toNat = places
  have hunit := Nat.two_pow_pos places
  have hnormal : -1074 < target → 2 ^ 52 ≤ mantissa / 2 ^ places := by
    intro hlarge
    have hlog : mantissa.log2 = 52 + places := by omega
    rw [Nat.le_div_iff_mul_le hunit, ← Nat.pow_add, ← hlog]
    exact Nat.log2_self_le (Nat.ne_of_gt hmantissa)
  refine ⟨?_, ?_, by omega, hnormal⟩
  · rcases Int.lt_or_le (-1074) target with hlarge | hsmall
    · exact Nat.lt_of_lt_of_le (by decide) (hnormal hlarge)
    · have hnone : places = 0 := by omega
      rw [hnone, Nat.pow_zero, Nat.div_one]
      exact hmantissa
  · rw [Nat.div_lt_iff_lt_mul hunit, ← Nat.pow_add]
    exact Nat.lt_of_lt_of_le Nat.lt_log2_self (Nat.pow_le_pow_right (by decide) (by omega))

/-- A canonical form is at its target exponent. -/
theorem Canonical.target_eq (hcanonical : Canonical mantissa exponent) :
    Format.binary64.targetExponent (totalExponent mantissa exponent) = exponent := by
  have hlog : mantissa.log2 ≤ 52 := log2_le_of_lt hcanonical.lt_carry
  have hleast := hcanonical.least_le
  rw [targetExponent_eq, totalExponent]
  rcases Int.lt_or_le (-1074) exponent with hlarge | hsmall
  · have hfull := (Nat.le_log2 (Nat.ne_of_gt hcanonical.positive)).2 (hcanonical.normal hlarge)
    omega
  · omega

/-- A mantissa that is carried beyond its places moves up by one. -/
theorem target_carry (hleast : -1074 ≤ exponent) :
    Format.binary64.targetExponent (totalExponent (2 ^ 53) exponent) = exponent + 1 := by
  rw [targetExponent_eq, totalExponent, Nat.log2_two_pow]
  omega

theorem Carried.canonical {rounded n : Nat} {f : Int} (hcarried : Carried rounded target n f) :
    Canonical n f := by
  cases hcarried with
  | kept hcanonical => exact hcanonical
  | moved _ hleast => exact ⟨Nat.two_pow_pos 52, by decide, by omega, fun _ => Nat.le_refl _⟩

/-- A mantissa that is canonical or to be carried comes to its final place. -/
theorem exists_carried {rounded : Nat} (hrounded : Canonical rounded target ∨ rounded = 2 ^ 53)
    (hleast : -1074 ≤ target) :
    Carried rounded target
      (shiftToTargetExponent Format.binary64 rounded target .exact).1.mantissa
      (shiftToTargetExponent Format.binary64 rounded target .exact).2 := by
  have hmantissa : (shiftToTargetExponent Format.binary64 rounded target .exact).1.mantissa =
      rounded / 2 ^ (Format.binary64.targetExponent (totalExponent rounded target) -
        target).toNat := mantissa_shift ..
  have hexponent : (shiftToTargetExponent Format.binary64 rounded target .exact).2 =
      target + ((Format.binary64.targetExponent (totalExponent rounded target) -
        target).toNat : Nat) := rfl
  rw [hmantissa, hexponent]
  rcases hrounded with hcanonical | rfl
  · rw [hcanonical.target_eq, Int.sub_self, Int.toNat_zero, Nat.pow_zero, Nat.div_one]
    exact (Int.add_zero target).symm ▸ .kept hcanonical
  · rw [target_carry hleast, add_sub_cancel_left]
    exact .moved rfl hleast

/-- Rounding drops the places beyond the target exponent. -/
theorem exists_roundWithAccuracy (sign : Sign) (hmantissa : 0 < mantissa)
    (hleast : -1074 ≤ exponent)
    (htarget : target = Format.binary64.targetExponent (totalExponent mantissa exponent))
    (hexponent : exponent ≤ target) :
    ∃ n f, ∃ hn : 0 < n,
      roundWithAccuracy Format.binary64 sign mantissa exponent .exact = .finite sign n f hn ∧
      Carried (roundedAt mantissa (target - exponent).toNat) target n f := by
  have hquotient := quotient_bounds hmantissa hleast htarget hexponent
  have hnext : exponent + ((target - exponent).toNat : Nat) = target := by omega
  have hshift : shiftToTargetExponent Format.binary64 mantissa exponent .exact =
      (ExtendedMantissa.ofMantissaAndAccuracy mantissa .exact >>> (target - exponent).toNat,
        target) := by
    rw [shiftToTargetExponent, shiftToExponent, ← htarget, hnext]
  have hbelow := le_roundedAt mantissa (target - exponent).toNat
  have habove := roundedAt_le mantissa (target - exponent).toNat
  have hrounded : Canonical (roundedAt mantissa (target - exponent).toNat) target ∨
      roundedAt mantissa (target - exponent).toNat = 2 ^ 53 := by
    have hlt := hquotient.lt_carry
    rcases Nat.lt_or_ge (roundedAt mantissa (target - exponent).toNat) (2 ^ 53) with hsmall | hcarry
    · exact .inl ⟨Nat.lt_of_lt_of_le hquotient.positive hbelow, hsmall, hquotient.least_le,
        fun hlarge => Nat.le_trans (hquotient.normal hlarge) hbelow⟩
    · exact .inr (by omega)
  have hcarried := exists_carried hrounded hquotient.least_le
  refine ⟨_, _, hcarried.canonical.positive, ?_, hcarried⟩
  unfold roundWithAccuracy
  rw [hshift]
  exact dif_neg (Nat.ne_of_gt hcarried.canonical.positive)

end Mantissa

/-! ## Other doubles -/

section Within

variable {m mantissa n places : Nat} {e exponent f target : Int}

theorem Canonical.representable (hcanonical : Canonical m e) :
    Representable ((m : ℚ) * 2 ^ e) :=
  ⟨m, e, hcanonical.lt_carry, hcanonical.least_le, by rw [Int.cast_natCast]⟩

/-- Canonical forms compare as the numbers that they stand for. -/
theorem within_iff (hm : Canonical m e) (hn : Canonical n f) :
    Within m e n f ↔ (m : ℚ) * 2 ^ e ≤ n * 2 ^ f := by
  rcases Int.lt_trichotomy e f with hlt | rfl | hgt
  · have hfull := hn.normal (lt_of_le_of_lt hm.least_le hlt)
    have hvalue := lt_of_exponent_lt (m := m) hm.lt_carry hfull hlt
    exact iff_of_true (.inl hlt) (by exact_mod_cast hvalue.le)
  · rw [mul_le_mul_iff_left₀ (zpow_pos two_pos _), Nat.cast_le]
    simp [Within]
  · have hfull := hm.normal (lt_of_le_of_lt hn.least_le hgt)
    have hvalue := lt_of_exponent_lt (m := n) hn.lt_carry hfull hgt
    refine iff_of_false (by unfold Within; omega) (not_le.2 ?_)
    exact_mod_cast hvalue

/-- A mantissa at a larger exponent, as a number. -/
theorem cast_shift (m : Nat) (he : exponent ≤ e) :
    (m : ℚ) * 2 ^ e = (m * 2 ^ (e - exponent).toNat : Nat) * 2 ^ exponent := by
  exact_mod_cast multiple_of_unit (m : Int) he

/-- What is at least a double is rounded to at least that double. -/
theorem RoundsTo.lower (hrounds : RoundsTo mantissa exponent n f) (hcanonical : Canonical m e)
    (he : exponent ≤ e) (hle : m * 2 ^ (e - exponent).toNat ≤ mantissa) : Within m e n f := by
  refine (within_iff hcanonical hrounds.canonical).2
    (hrounds.faithful.lower _ hcanonical.representable ?_)
  rw [cast_shift m he]
  exact mul_le_mul_of_nonneg_right (by exact_mod_cast hle) (zpow_pos two_pos _).le

/-- What is at most a double is rounded to at most that double. -/
theorem RoundsTo.upper (hrounds : RoundsTo mantissa exponent n f) (hcanonical : Canonical m e)
    (he : exponent ≤ e) (hle : mantissa ≤ m * 2 ^ (e - exponent).toNat) : Within n f m e := by
  refine (within_iff hrounds.canonical hcanonical).2
    (hrounds.faithful.upper _ hcanonical.representable ?_)
  rw [cast_shift m he]
  exact mul_le_mul_of_nonneg_right (by exact_mod_cast hle) (zpow_pos two_pos _).le

/-- A mantissa that is carried stands for the same number. -/
theorem Carried.value_eq {rounded : Nat} (hcarried : Carried rounded target n f) :
    (n : ℚ) * 2 ^ f = rounded * 2 ^ target := by
  cases hcarried with
  | kept => rfl
  | moved hcarry =>
      rw [hcarry, zpow_add₀ two_ne_zero, zpow_one]
      push_cast
      ring

/-- Dropping the last places of a mantissa that fills the others is faithful. -/
theorem faithful_roundedAt (hquotient : Canonical (mantissa / 2 ^ places) target) :
    Faithful (mantissa * 2 ^ (target - places)) (roundedAt mantissa places * 2 ^ target) := by
  have hunit : (0 : ℚ) < 2 ^ (target - places) := zpow_pos two_pos _
  have hscale (k : Nat) :
      (k : ℚ) * 2 ^ target = (k * 2 ^ places : Nat) * 2 ^ (target - places) := by
    rw [cast_shift k (by omega : target - places ≤ target)]
    congr 5
    omega
  have hbelow : mantissa / 2 ^ places * 2 ^ places ≤ mantissa := Nat.div_mul_le_self ..
  have habove : mantissa < (mantissa / 2 ^ places + 1) * 2 ^ places :=
    Nat.lt_mul_of_div_lt (Nat.lt_succ_self _) (Nat.two_pow_pos places)
  refine faithful_of_down hquotient.normal ?_ ?_
    (le_roundedAt mantissa places) (roundedAt_le mantissa places) ?_
  · rw [hscale]
    exact mul_le_mul_of_nonneg_right (by exact_mod_cast hbelow) hunit.le
  · rw [← Nat.cast_add_one, hscale]
    exact mul_lt_mul_of_pos_right (by exact_mod_cast habove) hunit
  · intro hexact
    rw [hscale, mul_left_inj' hunit.ne', Nat.cast_inj] at hexact
    rw [hexact, roundedAt_mul, ← hexact]

end Within

/-- A positive magnitude is rounded to a canonical form on the same side of every other one. -/
theorem exists_round (sign : Sign) {mantissa : Nat} {exponent : Int} (hmantissa : 0 < mantissa)
    (hleast : -1074 ≤ exponent) :
    ∃ n f, ∃ hn : 0 < n,
      UnpackedFloat.round Format.binary64 sign mantissa exponent = .finite sign n f hn ∧
      RoundsTo mantissa exponent n f := by
  -- Places that are missing are filled up with zeros first.
  obtain ⟨raised, hraised⟩ : ∃ raised, (exponent - Format.binary64.targetExponent
    (totalExponent mantissa exponent)).toNat = raised := ⟨_, rfl⟩
  obtain ⟨target, htarget⟩ : ∃ target, target = Format.binary64.targetExponent
    (totalExponent (mantissa <<< raised) (exponent - raised)) := ⟨_, rfl⟩
  have hpositive : 0 < mantissa <<< raised := by
    rw [Nat.shiftLeft_eq]
    exact Nat.mul_pos hmantissa (Nat.two_pow_pos _)
  have hbounds : -1074 ≤ exponent - raised ∧ exponent - raised ≤ target := by
    rw [targetExponent_eq, totalExponent] at hraised
    rw [targetExponent_eq, totalExponent, log2_shiftLeft (Nat.ne_of_gt hmantissa)] at htarget
    omega
  have hquotient := quotient_bounds hpositive hbounds.1 htarget hbounds.2
  obtain ⟨n, f, hn, hround, hcarried⟩ :=
    exists_roundWithAccuracy sign hpositive hbounds.1 htarget hbounds.2
  have hplaces : target - ((target - (exponent - raised)).toNat : Nat) = exponent - raised := by
    omega
  have hvalue : (mantissa : ℚ) * 2 ^ exponent = (mantissa <<< raised : Nat) *
      2 ^ (exponent - raised) := by
    rw [cast_shift mantissa (by omega : exponent - raised ≤ exponent), sub_sub_cancel,
      Int.toNat_natCast, Nat.shiftLeft_eq]
  refine ⟨n, f, hn, ?_, hcarried.canonical, ?_⟩
  · subst hraised
    exact hround
  · have hfaithful := faithful_roundedAt hquotient
    rwa [hplaces, ← hvalue, ← hcarried.value_eq] at hfaithful

/-! ## Bits -/

theorem toNat_one_append (bits : BitVec 52) : (1#1 ++ bits).toNat = 2 ^ 52 + bits.toNat := by
  rw [BitVec.toNat_append, ← Nat.shiftLeft_add_eq_or_of_lt bits.isLt]
  rfl

theorem canonical_of_unpack {bits : BitVec Format.binary64.numBits} {sign : Sign} {m : Nat}
    {e : Int} {hm : 0 < m}
    (hunpack : UnpackedFloat.unpack Format.binary64 bits = .finite sign m e hm) :
    Canonical m e ∧ e ≤ 971 := by
  have hbias : ((Format.binary64.exponentBias : Int) +
      (Format.binary64.mantissaBitsWithoutImplicit : Int)) = 1075 := rfl
  have hexponent : (unpackExponent bits).toNat < 2 ^ 11 := (unpackExponent bits).isLt
  have hmantissa : (unpackMantissa bits).toNat < 2 ^ 52 := (unpackMantissa bits).isLt
  unfold UnpackedFloat.unpack at hunpack
  dsimp only at hunpack
  rw [hbias] at hunpack
  split at hunpack
  · split at hunpack <;> cases hunpack
  · next hbelow =>
      have hbelow : (unpackExponent bits).toNat ≠ 2047 := fun heq =>
        hbelow (BitVec.eq_of_toNat_eq heq)
      split at hunpack
      · next hzero =>
          rw [hzero] at hunpack
          split at hunpack
          · cases hunpack
          · injection hunpack with _ hm' he
            subst hm' he
            exact ⟨⟨hm, by omega, by decide, fun h => absurd h (by decide)⟩, by decide⟩
      · next habove =>
          have habove : (unpackExponent bits).toNat ≠ 0 := fun heq =>
            habove (BitVec.eq_of_toNat_eq heq)
          have hmantissa' := toNat_one_append (unpackMantissa bits)
          injection hunpack with _ hm' he
          subst hm' he
          exact ⟨⟨hm, by omega, by omega, fun _ => by omega⟩, by omega⟩

theorem unpack_packComponents (sign : Sign) (exponent : BitVec 11) (mantissa : BitVec 52) :
    UnpackedFloat.unpack Format.binary64 (packComponents Format.binary64 sign exponent mantissa) =
      if exponent = -1#11 then if mantissa = 0#52 then .infinity sign else .notANumber
      else if exponent = 0#11 then
        if h : mantissa = 0#52 then .zero sign
        else .finite sign mantissa.toNat (exponent.toNat - 1075 + 1)
          (by simpa [BitVec.toNat_pos, BitVec.pos_iff_ne_zero])
      else .finite sign (1#1 ++ mantissa).toNat (exponent.toNat - 1075)
        (by rw [toNat_one_append]; omega) := by
  have hsign : Sign.ofBitVec sign.toBitVec = sign := by
    cases sign <;> rfl
  simp only [UnpackedFloat.unpack, unpackSign_packComponents, unpackExponent_packComponents,
    unpackMantissa_packComponents, hsign]
  rfl

theorem pack_finite (sign : Sign) {n : Nat} (f : Int) (hn : 0 < n) :
    UnpackedFloat.pack Format.binary64 (.finite sign n f hn) =
      if 2 ^ 11 ≤ (f + 1075).toNat + 1 then packedInfinity Format.binary64 sign
      else if n.log2 = 52 then
        packComponents Format.binary64 sign (BitVec.ofNat 11 (f + 1075).toNat) (BitVec.ofNat 52 n)
      else packComponents Format.binary64 sign 0#11 (BitVec.ofNat 52 n) := by
  have hbias : f + Format.binary64.exponentBias + Format.binary64.mantissaBitsWithoutImplicit =
      f + 1075 := Int.add_assoc ..
  have hplaces : n.log2 + 1 = Format.binary64.mantissaBits ↔ n.log2 = 52 := Nat.succ_inj
  rw [UnpackedFloat.pack]
  dsimp only
  rw [hbias]
  simp only [hplaces]

/-- A canonical form is kept by the bits if its exponent is not too large. -/
theorem unpack_pack_finite {sign : Sign} {n : Nat} {f : Int} (hcanonical : Canonical n f)
    (hf : f ≤ 971) :
    UnpackedFloat.unpack Format.binary64
        (UnpackedFloat.pack Format.binary64 (.finite sign n f hcanonical.positive)) =
      .finite sign n f hcanonical.positive := by
  have hleast := hcanonical.least_le
  have hcarry := hcanonical.lt_carry
  have hpositive := hcanonical.positive
  have hones : (-1#11).toNat = 2047 := by decide
  rw [pack_finite, if_neg (by omega)]
  split
  · next hlog =>
      -- The exponent is neither the least nor the greatest one.
      have hfull : 2 ^ 52 ≤ n := hlog ▸ Nat.log2_self_le (Nat.ne_of_gt hpositive)
      have hexponent : (BitVec.ofNat 11 (f + 1075).toNat).toNat = (f + 1075).toNat :=
        Nat.mod_eq_of_lt (by omega)
      have hones : BitVec.ofNat 11 (f + 1075).toNat ≠ -1#11 := by
        intro heq
        rw [heq] at hexponent
        omega
      have hzero : BitVec.ofNat 11 (f + 1075).toNat ≠ 0#11 := by
        intro heq
        rw [heq] at hexponent
        change 0 = _ at hexponent
        omega
      have hmantissa : (1#1 ++ BitVec.ofNat 52 n).toNat = n := by
        rw [toNat_one_append, BitVec.toNat_ofNat]
        omega
      rw [unpack_packComponents, if_neg hones, if_neg hzero]
      simp only [hmantissa, hexponent]
      congr 1
      omega
  · next hlog =>
      have hsmall : n < 2 ^ 52 := by
        by_contra hfull
        have hlarge := (Nat.le_log2 (Nat.ne_of_gt hpositive)).2 (Nat.not_lt.1 hfull)
        have hbound := log2_le_of_lt hcarry
        omega
      have hexponent : f = -1074 := by
        have hnormal := hcanonical.normal
        omega
      have hmantissa : (BitVec.ofNat 52 n).toNat = n := Nat.mod_eq_of_lt hsmall
      have hzero : BitVec.ofNat 52 n ≠ 0#52 := by
        intro heq
        rw [heq] at hmantissa
        change 0 = _ at hmantissa
        omega
      rw [unpack_packComponents, if_neg (by decide), if_pos rfl, dif_neg hzero]
      simp only [hmantissa, hexponent]
      rfl

theorem unpack_packedInfinity (sign : Sign) :
    UnpackedFloat.unpack Format.binary64 (packedInfinity Format.binary64 sign) =
      .infinity sign := by
  rw [packedInfinity, unpack_packComponents]
  rfl

theorem unpack_pack_infinite {sign : Sign} {n : Nat} {f : Int} {hn : 0 < n} (hf : 971 < f) :
    UnpackedFloat.unpack Format.binary64 (UnpackedFloat.pack Format.binary64 (.finite sign n f hn)) =
      .infinity sign := by
  rw [pack_finite, if_pos (by omega), unpack_packedInfinity]

end Backtest.Double
