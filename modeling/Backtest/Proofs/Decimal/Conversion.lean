import Backtest.Proofs.Decimal.Value

/-!
# Conversions of doubles

The program opens the bits of a double into the form that arithmetic gives it (`ofFloat_eq`), and
puts such a form back into bits (`toFloat_opened`).  So the floor of a finite double is that of the
number it stands for (`floor?_eq`), and a quotient of integers, and with it an integer, is
faithfully rounded to a double (`ofQuotient_cases`, `faithful_ofInt`).
-/

namespace Backtest

/-! ## Integers next to a quotient -/

theorem le_halfEven (num den : Nat) : num / den ≤ halfEven num den := by
  unfold halfEven
  dsimp only
  split <;> omega

theorem halfEven_le (num den : Nat) : halfEven num den ≤ num / den + 1 := by
  unfold halfEven
  dsimp only
  split <;> omega

theorem halfEven_of_mod (num : Nat) {den : Nat} (hden : 0 < den) (hrest : num % den = 0) :
    halfEven num den = num / den := by
  unfold halfEven
  dsimp only
  rw [hrest, if_neg]
  simp only [Nat.mul_zero, Bool.or_eq_true, Bool.and_eq_true, decide_eq_true_eq, beq_iff_eq]
  omega

namespace Double

open Float.Model Float.Model.UnpackedFloat

/-! ## Bits -/

/-- The form in which the program opens an unpacked double. -/
def opened : UnpackedFloat → Binary
  | .notANumber => .nan
  | .infinity sign => .infinite (sign == .negative)
  | .zero sign => .finite (sign == .negative) 0 Binary.leastExponent
  | .finite sign mantissa exponent _ => .finite (sign == .negative) mantissa exponent

theorem toNat_unpackExponent (bits : BitVec Format.binary64.numBits) :
    (unpackExponent bits).toNat = bits.toNat / 2 ^ 52 % 2 ^ 11 := by
  rw [unpackExponent, BitVec.toNat_cast, BitVec.extractLsb_toNat, Nat.shiftRight_eq_div_pow]
  rfl

theorem toNat_unpackMantissa (bits : BitVec Format.binary64.numBits) :
    (unpackMantissa bits).toNat = bits.toNat % 2 ^ 52 := by
  rw [unpackMantissa, BitVec.toNat_cast, BitVec.extractLsb_toNat, Nat.shiftRight_zero]
  rfl

theorem isNegative_unpackSign (bits : BitVec Format.binary64.numBits) :
    (Sign.ofBitVec (unpackSign bits) == .negative) = (bits.toNat / 2 ^ 63 == 1) := by
  have hbits : bits.toNat < 2 ^ 64 := bits.isLt
  have hsign : (unpackSign bits).toNat = bits.toNat / 2 ^ 63 := by
    rw [unpackSign, BitVec.toNat_cast, BitVec.extractLsb_toNat, Nat.shiftRight_eq_div_pow]
    change bits.toNat / 2 ^ 63 % 2 = _
    omega
  rw [← hsign]
  generalize unpackSign bits = sign
  revert sign
  decide

/-- The fields of a double, read from its bits as a natural number. -/
theorem opened_unpack (bits : BitVec Format.binary64.numBits) :
    opened (UnpackedFloat.unpack Format.binary64 bits) =
      if bits.toNat / 2 ^ 52 % 2 ^ 11 = 2047 then
        if bits.toNat % 2 ^ 52 = 0 then .infinite (bits.toNat / 2 ^ 63 == 1) else .nan
      else if bits.toNat / 2 ^ 52 % 2 ^ 11 = 0 then
        .finite (bits.toNat / 2 ^ 63 == 1) (bits.toNat % 2 ^ 52) Binary.leastExponent
      else .finite (bits.toNat / 2 ^ 63 == 1) (bits.toNat % 2 ^ 52 + 2 ^ 52)
        ((bits.toNat / 2 ^ 52 % 2 ^ 11 : Nat) - 1075) := by
  rw [← isNegative_unpackSign, ← toNat_unpackExponent, ← toNat_unpackMantissa]
  have hbias : ((Format.binary64.exponentBias : Int) +
      (Format.binary64.mantissaBitsWithoutImplicit : Int)) = 1075 := rfl
  have hones : unpackExponent bits = -1#11 ↔ (unpackExponent bits).toNat = 2047 :=
    BitVec.toNat_inj.symm
  have hzero : unpackExponent bits = 0#11 ↔ (unpackExponent bits).toNat = 0 :=
    BitVec.toNat_inj.symm
  have hnone : unpackMantissa bits = 0#52 ↔ (unpackMantissa bits).toNat = 0 :=
    BitVec.toNat_inj.symm
  unfold UnpackedFloat.unpack
  dsimp only
  rw [hbias]
  split
  · next hexponent =>
      rw [if_pos (hones.1 hexponent)]
      split
      · next hmantissa => rw [if_pos (hnone.1 hmantissa)]; rfl
      · next hmantissa => rw [if_neg (mt hnone.2 hmantissa)]; rfl
  · next hexponent =>
      rw [if_neg (mt hones.2 hexponent)]
      split
      · next hsmall =>
          rw [if_pos (hzero.1 hsmall)]
          split
          · next hmantissa => rw [hnone.1 hmantissa]; rfl
          · rw [hzero.1 hsmall]; rfl
      · next hlarge =>
          rw [if_neg (mt hzero.2 hlarge)]
          have hmantissa := toNat_one_append (unpackMantissa bits)
          exact congrArg (Binary.finite _ · _) (hmantissa.trans (Nat.add_comm ..))

/-- The bits of a double are opened into its unpacked form. -/
theorem ofFloat_eq (x : Float) : Binary.ofFloat x = opened x.toModel.unpack :=
  (opened_unpack x.toModel.toBits.toBitVec).symm

theorem toNat_packComponents (sign : Sign) (exponent : BitVec 11) (mantissa : BitVec 52) :
    (packComponents Format.binary64 sign exponent mantissa).toNat =
      (if sign == .negative then 2 ^ 63 else 0) + exponent.toNat * 2 ^ 52 + mantissa.toNat := by
  have hexponent := exponent.isLt
  have hmantissa := mantissa.isLt
  change (sign.toBitVec ++ exponent ++ mantissa).toNat = _
  rw [BitVec.toNat_append, ← Nat.shiftLeft_add_eq_or_of_lt hmantissa, BitVec.toNat_append,
    ← Nat.shiftLeft_add_eq_or_of_lt hexponent, Nat.shiftLeft_eq, Nat.shiftLeft_eq]
  cases sign with
  | positive =>
      change (0 * 2 ^ 11 + exponent.toNat) * 2 ^ 52 + mantissa.toNat =
        0 + exponent.toNat * 2 ^ 52 + mantissa.toNat
      omega
  | negative =>
      change (1 * 2 ^ 11 + exponent.toNat) * 2 ^ 52 + mantissa.toNat =
        2 ^ 63 + exponent.toNat * 2 ^ 52 + mantissa.toNat
      omega

/-- The leading bit of a full mantissa carries into the exponent field. -/
theorem toNat_pack {sign : Sign} {m : Nat} {e : Int} (hcanonical : Canonical m e) (he : e ≤ 971) :
    (UnpackedFloat.pack Format.binary64 (.finite sign m e hcanonical.positive)).toNat =
      (if sign == .negative then 2 ^ 63 else 0) + (e + 1074).toNat * 2 ^ 52 + m := by
  have hleast := hcanonical.least_le
  have hcarry := hcanonical.lt_carry
  have hnonzero := hcanonical.positive.ne'
  rw [pack_finite, if_neg (by omega)]
  split
  · next hlog =>
      have hfull : 2 ^ 52 ≤ m := hlog ▸ Nat.log2_self_le hnonzero
      rw [toNat_packComponents, BitVec.toNat_ofNat, BitVec.toNat_ofNat,
        Nat.mod_eq_of_lt (by omega : (e + 1075).toNat < 2 ^ 11)]
      omega
  · next hlog =>
      have hsmall : ¬ 2 ^ 52 ≤ m := fun hfull => hlog
        (le_antisymm (log2_le_of_lt hcarry) ((Nat.le_log2 hnonzero).2 hfull))
      have hexponent : e = -1074 := by
        have hnormal := hcanonical.normal
        omega
      rw [toNat_packComponents, BitVec.toNat_ofNat, BitVec.toNat_ofNat,
        Nat.mod_eq_of_lt (by omega : m < 2 ^ 52)]
      omega

theorem ofBits_toNat {u : UnpackedFloat} (hu : Stored u) :
    Float.ofBits (UInt64.ofNat (UnpackedFloat.pack Format.binary64 u).toNat) =
      Float.ofModel (Float.Model.pack u) := by
  have hbits : (UInt64.ofNat (UnpackedFloat.pack Format.binary64 u).toNat).toBitVec =
      UnpackedFloat.pack Format.binary64 u := BitVec.ofNat_toNat ..
  change Float.ofModel (Float.Model.pack (UnpackedFloat.unpack Format.binary64 _)) = _
  rw [hbits, hu.unpack_pack]

/-- A finite double is put back into bits as it was opened. -/
theorem toFloat_opened {u : UnpackedFloat} (hu : Stored u) :
    (opened u).toFloat = Float.ofModel (Float.Model.pack u) := by
  rw [← ofBits_toNat hu]
  cases hu with
  | zero sign => cases sign <;> rfl
  | finite sign hcanonical hgreatest =>
      rw [toNat_pack hcanonical hgreatest, Nat.add_assoc]
      cases sign with
      | positive => rw [if_neg (by decide), Nat.zero_add]; rfl
      | negative => rw [if_pos (by decide)]; rfl

/-! ## Floors -/

theorem scaled_den_pos (num : Nat) {den : Nat} (hden : 0 < den) (exponent : Int) :
    0 < (Binary.scaled num den exponent).2 := by
  unfold Binary.scaled
  split
  · exact hden
  · exact Nat.mul_pos hden (Nat.two_pow_pos _)

theorem scaled_eq (num den : Nat) (exponent : Int) :
    ((Binary.scaled num den exponent).1 : ℚ) / (Binary.scaled num den exponent).2 =
      num / den * 2 ^ (-exponent) := by
  unfold Binary.scaled
  split
  · next hnegative =>
      have hexponent : -exponent = (exponent.natAbs : Int) := by omega
      rw [hexponent, zpow_natCast]
      simp only [Nat.pow_eq, Nat.cast_mul, Nat.cast_pow, Nat.cast_ofNat]
      rw [mul_div_right_comm]
  · next hnonnegative =>
      have hexponent : exponent = (exponent.natAbs : Int) := by omega
      rw [zpow_neg, hexponent, zpow_natCast, ← hexponent]
      simp only [Nat.pow_eq, Nat.cast_mul, Nat.cast_pow, Nat.cast_ofNat]
      rw [← div_div, div_eq_mul_inv (_ / _)]

theorem floor?_opened {u : UnpackedFloat} (hu : Stored u) :
    (opened u).floor? = some ⌊value u⌋ := by
  have hfloor (sign : Sign) (m : Nat) (e : Int) :
      (Binary.finite (sign == .negative) m e).floor? = some ⌊signed sign (m * 2 ^ e)⌋ := by
    have hscaled := scaled_eq m 1 (-e)
    rw [Nat.cast_one, div_one, neg_neg] at hscaled
    unfold Binary.floor? Binary.magnitude
    dsimp only
    rw [Int.fdiv_eq_ediv_of_nonneg _ (Int.natCast_nonneg _), ← Rat.floor_intCast_div_natCast,
      ← hscaled]
    cases sign with
    | positive => rw [if_neg (by decide), Int.cast_natCast]; rfl
    | negative => rw [if_pos (by decide), Int.cast_neg, Int.cast_natCast, neg_div]; rfl
  cases hu with
  | finite sign => exact hfloor ..
  | zero sign =>
      have hzero := hfloor sign 0 Binary.leastExponent
      rw [Nat.cast_zero, zero_mul] at hzero
      cases sign <;> simpa [opened, value, signed] using hzero

/-- The floor of a finite double. -/
theorem floor?_eq {x : Float} (hx : Arith.isFinite x = true) :
    Arith.floor? x = some ⌊toRat x⌋ := by
  change (Binary.ofFloat x).floor? = _
  rw [ofFloat_eq, floor?_opened (stored hx)]
  rfl

/-- Only finite doubles have a floor. -/
theorem finite_of_floor? {x : Float} {n : Int} (hfloor : Arith.floor? x = some n) :
    Arith.isFinite x = true := by
  change (Binary.ofFloat x).floor? = some n at hfloor
  rw [ofFloat_eq] at hfloor
  apply Bool.of_not_eq_false
  intro hx
  have hspecial := special hx
  generalize x.toModel.unpack = u at hfloor hspecial
  cases hspecial <;> cases hfloor

/-! ## Quotients -/

section Quotient

variable {num den : Nat}

/-- A quotient at an exponent, as an integer, counts the units that are not above it. -/
theorem le_scaled_iff (num : Nat) (hden : 0 < den) (count : Nat) (exponent : Int) :
    count ≤ (Binary.scaled num den exponent).1 / (Binary.scaled num den exponent).2 ↔
      (count : ℚ) * 2 ^ exponent ≤ num / den := by
  have hscaled := scaled_den_pos num hden exponent
  have hpositive : (0 : ℚ) < (Binary.scaled num den exponent).2 := by exact_mod_cast hscaled
  have hunit : (0 : ℚ) < 2 ^ exponent := zpow_pos two_pos _
  rw [Nat.le_div_iff_mul_le hscaled, ← le_div_iff₀ hunit, div_eq_mul_inv (_ / _), ← zpow_neg,
    ← scaled_eq, le_div_iff₀ hpositive]
  exact_mod_cast Iff.rfl

theorem log2_bounds (hnum : 0 < num) (hden : 0 < den) :
    (2 : ℚ) ^ ((num.log2 : Int) - den.log2 - 1) ≤ num / den ∧
      (num : ℚ) / den < 2 ^ ((num.log2 : Int) - den.log2 + 1) := by
  have hden' : (0 : ℚ) < den := by exact_mod_cast hden
  have hnumLow : (2 : ℚ) ^ num.log2 ≤ num := by exact_mod_cast Nat.log2_self_le hnum.ne'
  have hnumHigh : (num : ℚ) < 2 ^ (num.log2 + 1) := by exact_mod_cast Nat.lt_log2_self (n := num)
  have hdenLow : (2 : ℚ) ^ den.log2 ≤ den := by exact_mod_cast Nat.log2_self_le hden.ne'
  have hdenHigh : (den : ℚ) < 2 ^ (den.log2 + 1) := by exact_mod_cast Nat.lt_log2_self (n := den)
  constructor
  · rw [le_div_iff₀ hden']
    calc (2 : ℚ) ^ ((num.log2 : Int) - den.log2 - 1) * den
        ≤ 2 ^ ((num.log2 : Int) - den.log2 - 1) * 2 ^ (den.log2 + 1) :=
          mul_le_mul_of_nonneg_left hdenHigh.le (zpow_pos two_pos _).le
      _ = 2 ^ num.log2 := by
          rw [← zpow_natCast, ← zpow_natCast, ← zpow_add₀ two_ne_zero]
          congr 1
          push_cast
          ring
      _ ≤ num := hnumLow
  · rw [div_lt_iff₀ hden']
    calc (num : ℚ) < 2 ^ (num.log2 + 1) := hnumHigh
      _ = 2 ^ ((num.log2 : Int) - den.log2 + 1) * 2 ^ den.log2 := by
          rw [← zpow_natCast, ← zpow_natCast, ← zpow_add₀ two_ne_zero]
          congr 1
          push_cast
          ring
      _ ≤ 2 ^ ((num.log2 : Int) - den.log2 + 1) * den :=
          mul_le_mul_of_nonneg_left hdenLow (zpow_pos two_pos _).le

/-- The exponent at which a quotient is rounded. -/
def roundingExponent (num den : Nat) : Int :=
  let low := max ((num.log2 : Int) - den.log2 - 53) Binary.leastExponent
  if 2 ^ 53 ≤ (Binary.scaled num den low).1 / (Binary.scaled num den low).2 then low + 1 else low

/-- At its exponent a quotient fills 53 bits, unless the exponent is the least one. -/
theorem roundingExponent_spec (hnum : 0 < num) (hden : 0 < den) :
    let exponent := roundingExponent num den
    let down := (Binary.scaled num den exponent).1 / (Binary.scaled num den exponent).2
    down < 2 ^ 53 ∧ -1074 ≤ exponent ∧ (-1074 < exponent → 2 ^ 52 ≤ down) := by
  obtain ⟨hlower, hupper⟩ := log2_bounds hnum hden
  dsimp only
  unfold roundingExponent
  dsimp only
  generalize hlow : max ((num.log2 : Int) - den.log2 - 53) Binary.leastExponent = low
  have hleast : -1074 ≤ low := hlow ▸ le_max_right _ _
  have hguess : (num.log2 : Int) - den.log2 - 53 ≤ low := hlow ▸ le_max_left _ _
  have hcount (count : Nat) (exponent : Int) :
      2 ^ count ≤ (Binary.scaled num den exponent).1 / (Binary.scaled num den exponent).2 ↔
        (2 : ℚ) ^ (count + exponent) ≤ num / den := by
    rw [le_scaled_iff num hden, zpow_add₀ two_ne_zero, zpow_natCast, Nat.cast_pow, Nat.cast_ofNat]
  split
  · next hlarge =>
      rw [hcount] at hlarge
      refine ⟨not_le.1 fun hcarry => ?_, by omega, fun _ => ?_⟩
      · rw [hcount] at hcarry
        have hlt := (zpow_lt_zpow_iff_right₀ one_lt_two).1 (hcarry.trans_lt hupper)
        omega
      · rw [hcount]
        exact (zpow_le_zpow_right₀ one_le_two (by omega)).trans hlarge
  · next hsmall =>
      refine ⟨not_le.1 hsmall, hleast, fun hnormal => ?_⟩
      rw [hcount]
      unfold Binary.leastExponent at hlow
      exact (zpow_le_zpow_right₀ one_le_two (by omega)).trans hlower

/-- A quotient is faithfully rounded to the nearest multiple of its unit. -/
theorem faithful_halfEven (hnum : 0 < num) (hden : 0 < den) :
    let exponent := roundingExponent num den
    let exact := Binary.scaled num den exponent
    Faithful (num / den) (halfEven exact.1 exact.2 * 2 ^ exponent) := by
  obtain ⟨-, -, hfull⟩ := roundingExponent_spec hnum hden
  dsimp only
  generalize roundingExponent num den = exponent at hfull ⊢
  have hcount (count : Nat) := le_scaled_iff num hden count exponent
  have hpositive := scaled_den_pos num hden exponent
  refine faithful_of_down hfull ((hcount _).1 le_rfl) (not_le.1 fun hnext => ?_)
    (le_halfEven ..) (halfEven_le ..) fun hexact => halfEven_of_mod _ hpositive ?_
  · rw [← Nat.cast_add_one, ← hcount] at hnext
    omega
  · -- An exact multiple of the unit leaves no rest.
    have hquotient := scaled_eq num den exponent
    rw [hexact, mul_assoc, ← zpow_add₀ two_ne_zero, add_neg_cancel, zpow_zero, mul_one,
      div_eq_iff (by exact_mod_cast hpositive.ne')] at hquotient
    exact Nat.mod_eq_zero_of_dvd (Dvd.intro_left _ (by exact_mod_cast hquotient.symm))

theorem ofQuotient_eq (negative : Bool) (hnum : 0 < num) (den : Nat) :
    Binary.ofQuotient negative num den =
      let exponent := roundingExponent num den
      let exact := Binary.scaled num den exponent
      let rounded := halfEven exact.1 exact.2
      let carried := rounded == 2 ^ 53
      let mantissa := if carried then 2 ^ 52 else rounded
      let exponent := if carried then exponent + 1 else exponent
      if 971 < exponent then .infinite negative else .finite negative mantissa exponent := by
  rw [Binary.ofQuotient, if_neg hnum.ne']
  rfl

end Quotient

/-- The sign that a flag stands for. -/
def signOf (negative : Bool) : Sign := if negative then .negative else .positive

theorem signOf_isNegative (negative : Bool) : (signOf negative == .negative) = negative := by
  cases negative <;> rfl

/-- A quotient is infinite, or it is faithfully rounded to a double. -/
theorem ofQuotient_cases (negative : Bool) (num : Nat) {den : Nat} (hden : 0 < den) :
    Binary.ofQuotient negative num den = .infinite negative ∨
      ∃ u, Stored u ∧ Binary.ofQuotient negative num den = opened u ∧
        Faithful (signed (signOf negative) (num / den)) (value u) := by
  rcases Nat.eq_zero_or_pos num with rfl | hnum
  · refine .inr ⟨.zero (signOf negative), .zero _, ?_, ?_⟩
    · cases negative <;> rfl
    · rw [Nat.cast_zero, zero_div]
      cases negative
      · exact .refl 0
      · exact (Faithful.refl 0).neg
  obtain ⟨hroom, hleast, hfull⟩ := roundingExponent_spec hnum hden
  have hfaithful := faithful_halfEven hnum hden
  have hle := le_halfEven (Binary.scaled num den (roundingExponent num den)).1
    (Binary.scaled num den (roundingExponent num den)).2
  have hge := halfEven_le (Binary.scaled num den (roundingExponent num den)).1
    (Binary.scaled num den (roundingExponent num den)).2
  rw [ofQuotient_eq negative hnum den]
  dsimp only at hfaithful hle hge hroom hfull ⊢
  generalize roundingExponent num den = exponent at *
  generalize halfEven (Binary.scaled num den exponent).1 (Binary.scaled num den exponent).2 =
    rounded at *
  rcases Nat.eq_zero_or_pos rounded with rfl | hpositive
  · -- Only below the smallest double is nothing left.
    have hexponent : exponent = -1074 := by omega
    refine .inr ⟨.zero (signOf negative), .zero _, ?_, ?_⟩
    · rw [hexponent]
      cases negative <;> rfl
    · rw [Nat.cast_zero, zero_mul] at hfaithful
      have hsigned := signed_faithful hfaithful (signOf negative)
      cases negative
      · exact hsigned
      · rwa [show signed (signOf true) 0 = 0 from neg_zero] at hsigned
  · have hcarried : Carried rounded exponent (if rounded == 2 ^ 53 then 2 ^ 52 else rounded)
        (if rounded == 2 ^ 53 then exponent + 1 else exponent) := by
      by_cases hcarry : rounded = 2 ^ 53
      · rw [if_pos (beq_iff_eq.2 hcarry), if_pos (beq_iff_eq.2 hcarry)]
        exact .moved hcarry hleast
      · rw [if_neg (mt beq_iff_eq.1 hcarry), if_neg (mt beq_iff_eq.1 hcarry)]
        exact .kept ⟨hpositive, by omega, hleast, fun h => (hfull h).trans hle⟩
    rw [← hcarried.value_eq] at hfaithful
    generalize (if rounded == 2 ^ 53 then 2 ^ 52 else rounded) = mantissa at *
    generalize (if rounded == 2 ^ 53 then exponent + 1 else exponent) = last at *
    split
    · exact .inl rfl
    · next hlast =>
        refine .inr ⟨_, .finite (signOf negative) hcarried.canonical (not_lt.1 hlast), ?_,
          signed_faithful hfaithful _⟩
        rw [opened, signOf_isNegative]

/-! ## Integers -/

section Integer

variable {n : Int} {x : Float}

theorem signed_natAbs (n : Int) : signed (signOf (decide (n < 0))) (n.natAbs / (1 : Nat)) = n := by
  rw [Nat.cast_one, div_one]
  rcases lt_or_ge n 0 with hlt | hge
  · rw [decide_eq_true hlt]
    change -((n.natAbs : Nat) : ℚ) = n
    rw [Nat.cast_natAbs, Int.cast_abs, abs_of_neg (by exact_mod_cast hlt), neg_neg]
  · rw [decide_eq_false (not_lt.2 hge)]
    change ((n.natAbs : Nat) : ℚ) = n
    rw [Nat.cast_natAbs, Int.cast_abs, abs_of_nonneg (by exact_mod_cast hge)]

/-- An integer that has a double is faithfully rounded to it. -/
theorem faithful_ofInt (hint : Arith.ofInt? n = some x) :
    Arith.isFinite x = true ∧ Faithful n (toRat x) := by
  change ((Binary.ofQuotient (n < 0) n.natAbs 1).finite?).map Binary.toFloat = some x at hint
  rcases ofQuotient_cases (n < 0) n.natAbs one_pos with hinfinite | ⟨u, hu, hopened, hfaithful⟩
  · rw [hinfinite] at hint
    cases hint
  · have hfinite : (opened u).finite? = some (opened u) := by cases hu <;> rfl
    rw [hopened, hfinite, Option.map_some, toFloat_opened hu, Option.some.injEq] at hint
    have hunpack : x.toModel.unpack = u := by
      rw [← hint]
      exact hu.unpack_pack
    rw [signed_natAbs] at hfaithful
    refine ⟨?_, ?_⟩
    · change x.toModel.unpack.isFinite = true
      rw [hunpack, hu.isFinite]
    · rwa [toRat, hunpack]

/-- A power of two has a double of its own value. -/
theorem exists_ofInt_two_pow {k : Nat} (hk : k ≤ 1022) :
    ∃ x : Float, Arith.ofInt? (2 ^ k : Nat) = some x ∧ Arith.isFinite x = true ∧
      toRat x = 2 ^ k := by
  have hlog : ((2 ^ k : Nat) : Int).natAbs.log2 ≤ 1022 := by
    rwa [Int.natAbs_natCast, Nat.log2_two_pow]
  obtain ⟨x, hx⟩ := exists_quotient 1 hlog
  have hint : Arith.ofInt? (2 ^ k : Nat) = some x := hx
  obtain ⟨hfinite, hfaithful⟩ := faithful_ofInt hint
  rw [Int.cast_natCast, Nat.cast_pow, Nat.cast_ofNat] at hfaithful
  exact ⟨x, hint, hfinite, hfaithful.eq_of_representable (representable_two_pow k)⟩

theorem roundingExponent_one {n : Nat} (hn : 0 < n) : roundingExponent n 1 = n.log2 - 52 := by
  have hlow : max ((n.log2 : Int) - (Nat.log2 1 : Nat) - 53) Binary.leastExponent =
      n.log2 + -53 := by
    have hone : Nat.log2 1 = 0 := rfl
    rw [hone]
    unfold Binary.leastExponent
    omega
  have hfills : 2 ^ 53 ≤ (Binary.scaled n 1 (n.log2 + -53)).1 /
      (Binary.scaled n 1 (n.log2 + -53)).2 := by
    rw [le_scaled_iff n one_pos, zpow_add₀ two_ne_zero, zpow_natCast, Nat.cast_one, div_one]
    have hlower : (2 : ℚ) ^ n.log2 ≤ n := by exact_mod_cast Nat.log2_self_le hn.ne'
    refine le_trans (le_of_eq ?_) hlower
    rw [mul_left_comm, zpow_neg, Nat.cast_pow]
    norm_num
  unfold roundingExponent
  dsimp only
  rw [hlow, if_pos hfills]
  omega

/-- At an exponent where it fills 53 bits, an integer is carried from the middle of the last unit
on. -/
theorem halfEven_carried_iff {n unit : Nat} (hunit : 0 < unit) (hn : n < 2 ^ 53 * (2 * unit)) :
    halfEven n (2 * unit) = 2 ^ 53 ↔ (2 ^ 54 - 1) * unit ≤ n := by
  have hdiv := Nat.div_add_mod n (2 * unit)
  have hmod := Nat.mod_lt n (Nat.mul_pos two_pos hunit)
  have hdown : n / (2 * unit) < 2 ^ 53 := by
    rwa [Nat.div_lt_iff_lt_mul (Nat.mul_pos two_pos hunit)]
  rcases Nat.lt_or_ge (n / (2 * unit)) (2 ^ 53 - 1) with hsmall | hlarge
  · have hle := halfEven_le n (2 * unit)
    have hbound : 2 * unit * (n / (2 * unit)) ≤ 2 * unit * (2 ^ 53 - 2) :=
      Nat.mul_le_mul_left _ (by omega)
    exact iff_of_false (by omega) (by omega)
  · have hfull : n / (2 * unit) = 2 ^ 53 - 1 := by omega
    rw [hfull] at hdiv
    unfold halfEven
    dsimp only
    rw [hfull]
    generalize n % (2 * unit) = rest at hdiv hmod ⊢
    have hround : (decide (2 * unit < 2 * rest) ||
        2 * rest == 2 * unit && (2 ^ 53 - 1) % 2 == 1) = true ↔ unit ≤ rest := by
      simp only [Bool.or_eq_true, Bool.and_eq_true, decide_eq_true_eq, beq_iff_eq]
      omega
    by_cases hrest : unit ≤ rest
    · rw [if_pos (hround.2 hrest)]
      exact iff_of_true rfl (by omega)
    · rw [if_neg (mt hround.1 hrest)]
      exact iff_of_false (by decide) (by omega)

theorem ofQuotient_infinite_iff (negative : Bool) (n : Nat) :
    Binary.ofQuotient negative n 1 = .infinite negative ↔ (2 ^ 54 - 1) * 2 ^ 970 ≤ n := by
  -- The powers are kept from being computed.
  obtain ⟨k, hk⟩ : ∃ k : Nat, k = 970 := ⟨_, rfl⟩
  rw [← hk]
  have hunit : 0 < 2 ^ k := pow_pos two_pos k
  rcases Nat.eq_zero_or_pos n with rfl | hpositive
  · refine iff_of_false ?_ (by omega)
    rw [Binary.ofQuotient, if_pos rfl]
    exact nofun
  have hlower := Nat.log2_self_le hpositive.ne'
  have hupper := Nat.lt_log2_self (n := n)
  rw [ofQuotient_eq negative hpositive, roundingExponent_one hpositive]
  dsimp only
  rcases lt_trichotomy n.log2 (53 + k) with hsmall | hlast | hlarge
  · have hbound : 2 ^ (n.log2 + 1) ≤ 2 ^ (53 + k) := Nat.pow_le_pow_right two_pos hsmall
    rw [pow_add 2 53 k] at hbound
    rw [if_neg (by split <;> omega)]
    exact iff_of_false nofun (by omega)
  · have hexponent : (n.log2 : Int) - 52 = (k + 1 : Nat) := by omega
    have hscaled : Binary.scaled n 1 (k + 1 : Nat) = (n, 2 * 2 ^ k) := by
      rw [Binary.scaled, if_neg (by omega), Int.natAbs_natCast, Nat.one_mul]
      exact congrArg (Prod.mk n) (pow_succ' 2 k)
    have hbelow : n < 2 ^ 53 * (2 * 2 ^ k) := by
      rwa [hlast, add_assoc, pow_add 2 53, pow_succ' 2 k] at hupper
    rw [hexponent, hscaled, ← halfEven_carried_iff hunit hbelow]
    generalize halfEven n (2 * 2 ^ k) = rounded
    by_cases hcarry : rounded = 2 ^ 53
    · rw [if_pos (by rw [if_pos (beq_iff_eq.2 hcarry)]; omega)]
      exact iff_of_true rfl hcarry
    · rw [if_neg (by rw [if_neg (mt beq_iff_eq.1 hcarry)]; omega)]
      exact iff_of_false nofun hcarry
  · have hbound : 2 ^ (53 + (k + 1)) ≤ 2 ^ n.log2 := Nat.pow_le_pow_right two_pos (by omega)
    rw [pow_add 2 53, pow_succ' 2 k] at hbound
    rw [if_pos (by split <;> omega)]
    exact iff_of_true rfl (by omega)

/-- Exactly the integers from halfway beyond the largest double on have none. -/
theorem ofInt?_eq_none_iff :
    (Arith.ofInt? n : Option Float) = none ↔ (2 ^ 54 - 1) * 2 ^ 970 ≤ n.natAbs := by
  rw [← ofQuotient_infinite_iff (n < 0)]
  change ((Binary.ofQuotient (n < 0) n.natAbs 1).finite?).map Binary.toFloat = none ↔ _
  rcases ofQuotient_cases (n < 0) n.natAbs one_pos with hinfinite | ⟨u, hu, hopened, -⟩
  · rw [hinfinite]
    exact iff_of_true rfl rfl
  · rw [hopened]
    cases hu <;> exact iff_of_false nofun nofun

end Integer

/-! ## Constants -/

theorem toRat_of_unpack {x : Float} {sign : Sign} {m : Nat} {e : Int} {hm : 0 < m}
    (hunpack : x.toModel.unpack = .finite sign m e hm) :
    Arith.isFinite x = true ∧ toRat x = signed sign (m * 2 ^ e) := by
  rw [toRat, hunpack]
  refine ⟨?_, rfl⟩
  change x.toModel.unpack.isFinite = true
  rw [hunpack]
  rfl

theorem toRat_of_bits {x : Float} {bits : UInt64} (sign : Sign) (m : Nat) (e : Int) (hm : 0 < m)
    (hbits : x.toModel.toBits = bits)
    (hfields : UnpackedFloat.unpack Format.binary64 bits.toBitVec = .finite sign m e hm) :
    Arith.isFinite x = true ∧ toRat x = signed sign (m * 2 ^ e) := by
  apply toRat_of_unpack
  rw [Float.Model.unpack, hbits, hfields]

theorem toRat_zero : Arith.isFinite (Arith.zero : Float) = true ∧
    toRat (Arith.zero : Float) = 0 := by
  rw [toRat, unpack_zero]
  refine ⟨?_, rfl⟩
  change (Arith.zero : Float).toModel.unpack.isFinite = true
  rw [unpack_zero]
  rfl

theorem toRat_half : Arith.isFinite (Arith.ofDecimal false 5 (-1) : Float) = true ∧
    toRat (Arith.ofDecimal false 5 (-1) : Float) = 1 / 2 := by
  have hhalf := toRat_of_unpack unpack_half
  refine ⟨hhalf.1, hhalf.2.trans ?_⟩
  norm_num [signed]

theorem toRat_one : Arith.isFinite (Arith.one : Float) = true ∧
    toRat (Arith.one : Float) = 1 := by
  have hbits : (Arith.one : Float).toModel.toBits = 0x3FF0000000000000 := by
    decide +kernel
  have hone := toRat_of_bits .positive 4503599627370496 (-52) (by decide) hbits rfl
  refine ⟨hone.1, hone.2.trans ?_⟩
  norm_num [signed]

end Double

end Backtest
