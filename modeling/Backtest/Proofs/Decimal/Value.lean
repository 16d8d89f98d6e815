import Backtest.Proofs.Decimal.Widening

/-!
# Values of doubles

A finite double stands for an exact number, and finite doubles compare as these numbers do
(`atMost_iff_toRat`).  Sums and products of doubles are faithfully rounded where they are finite
(`faithful_add`, `faithful_mul`), and they are finite well within the range of doubles
(`isFinite_add`, `isFinite_mul`).
-/

namespace Backtest.Double

open Float.Model Float.Model.UnpackedFloat

/-! ## Values -/

/-- A magnitude with a sign. -/
def signed : Sign → ℚ → ℚ
  | .positive, magnitude => magnitude
  | .negative, magnitude => -magnitude

/-- The exact number that an unpacked double stands for; zero for those that are not finite. -/
def value : UnpackedFloat → ℚ
  | .finite sign mantissa exponent _ => signed sign (mantissa * 2 ^ exponent)
  | _ => 0

/-- The exact number that a double stands for; zero for those that are not finite. -/
def toRat (x : Float) : ℚ := value x.toModel.unpack

/-- A finite double, unpacked. -/
inductive Stored : UnpackedFloat → Prop
  | zero (sign : Sign) : Stored (.zero sign)
  | finite (sign : Sign) {mantissa : Nat} {exponent : Int}
      (hcanonical : Canonical mantissa exponent) (hgreatest : exponent ≤ 971) :
      Stored (.finite sign mantissa exponent hcanonical.positive)

theorem stored {x : Float} (hx : Arith.isFinite x = true) : Stored x.toModel.unpack := by
  change x.toModel.unpack.isFinite = true at hx
  cases hu : x.toModel.unpack with
  | zero sign => exact .zero sign
  | finite sign mantissa exponent hpositive =>
      obtain ⟨hcanonical, hgreatest⟩ := canonical_of_unpack hu
      exact .finite sign hcanonical hgreatest
  | notANumber | infinity =>
      rw [hu] at hx
      cases hx

theorem Stored.isFinite {u : UnpackedFloat} (hu : Stored u) : u.isFinite = true := by
  cases hu <;> rfl

theorem Stored.unpack_pack {u : UnpackedFloat} (hu : Stored u) :
    UnpackedFloat.unpack Format.binary64 (UnpackedFloat.pack Format.binary64 u) = u := by
  cases hu with
  | zero sign => exact unpack_packedZero
  | finite sign hcanonical hgreatest => exact unpack_pack_finite hcanonical hgreatest

theorem Stored.representable {u : UnpackedFloat} (hu : Stored u) : Representable (value u) := by
  cases hu with
  | zero => exact_mod_cast representable_int (n := 0) (by decide)
  | finite sign hcanonical =>
      cases sign with
      | positive => exact hcanonical.representable
      | negative => exact hcanonical.representable.neg

theorem representable_toRat {x : Float} (hx : Arith.isFinite x = true) :
    Representable (toRat x) :=
  (stored hx).representable

/-! ## Order -/

theorem magnitude_pos {m : Nat} (hm : 0 < m) (e : Int) : (0 : ℚ) < m * 2 ^ e :=
  mul_pos (Nat.cast_pos.2 hm) (zpow_pos two_pos e)

theorem key_le_iff_value {u v : UnpackedFloat} (hu : Stored u) (hv : Stored v) :
    key u ≤ key v ↔ value u ≤ value v := by
  cases hu with
  | zero =>
      cases hv with
      | zero => simp [key, value]
      | @finite t n f hn =>
          have hpositive := magnitude_pos hn.positive f
          cases t
          · simpa [key, value, signed, Prod.Lex.toLex_le_toLex] using hpositive
          · simpa [key, value, signed, Prod.Lex.toLex_le_toLex] using hpositive.le
  | @finite s m e hm =>
      have hfirst := magnitude_pos hm.positive e
      cases hv with
      | zero =>
          cases s
          · simpa [key, value, signed, Prod.Lex.toLex_le_toLex] using hfirst.le
          · simpa [key, value, signed, Prod.Lex.toLex_le_toLex] using hfirst
      | @finite t n f hn =>
          have hsecond := magnitude_pos hn.positive f
          cases s <;> cases t
          · rw [key_le_iff_within.2, within_iff hn hm]
            exact neg_le_neg_iff.symm
          · refine iff_of_true (by simp [key, Prod.Lex.toLex_le_toLex]) ?_
            exact (neg_lt_zero.2 hfirst).le.trans hsecond.le
          · refine iff_of_false (by simp [key, Prod.Lex.toLex_le_toLex]) (not_le.2 ?_)
            exact (neg_lt_zero.2 hsecond).trans hfirst
          · rw [key_le_iff_within.1, within_iff hm hn]
            rfl

theorem Stored.isNaN {u : UnpackedFloat} (hu : Stored u) : u.isNaN = false := by
  cases hu <;> rfl

/-- Finite doubles compare as the numbers that they stand for. -/
theorem atMost_iff_toRat {x y : Float} (hx : Arith.isFinite x = true)
    (hy : Arith.isFinite y = true) : Arith.atMost x y = true ↔ toRat x ≤ toRat y :=
  (atMost_iff_key (stored hx).isNaN (stored hy).isNaN).trans
    (key_le_iff_value (stored hx) (stored hy))

theorem less_iff_toRat {x y : Float} (hx : Arith.isFinite x = true)
    (hy : Arith.isFinite y = true) : Arith.less x y = true ↔ toRat x < toRat y := by
  rw [ordered.less_iff, ← Bool.not_eq_true, atMost_iff_toRat hx hy, atMost_iff_toRat hy hx,
    lt_iff_le_not_ge]

/-! ## Rounding -/

/-- An unpacked number that is finite but for the size of its exponent, and faithfully rounded. -/
inductive Rounded (exact : ℚ) : UnpackedFloat → Prop
  | zero (sign : Sign) (hfaithful : Faithful exact 0) : Rounded exact (.zero sign)
  | finite (sign : Sign) {mantissa : Nat} {exponent : Int}
      (hcanonical : Canonical mantissa exponent)
      (hfaithful : Faithful exact (signed sign (mantissa * 2 ^ exponent))) :
      Rounded exact (.finite sign mantissa exponent hcanonical.positive)

theorem Stored.rounded {u : UnpackedFloat} (hu : Stored u) : Rounded (value u) u := by
  cases hu with
  | zero sign => exact .zero sign (.refl 0)
  | finite sign hcanonical => exact .finite sign hcanonical (.refl _)

/-- Numbers up to `2 ^ 1023` are rounded to doubles. -/
theorem exponent_le_of_le {m : Nat} {e : Int} (hcanonical : Canonical m e)
    (hle : (m : ℚ) * 2 ^ e ≤ 2 ^ 1023) : e ≤ 971 := by
  by_contra hlarge
  have hfull : (2 : ℚ) ^ 52 ≤ m := by exact_mod_cast hcanonical.normal (by omega)
  have hunit : (2 : ℚ) ^ 972 ≤ 2 ^ e := by
    rw [← zpow_natCast]
    exact zpow_le_zpow_right₀ one_le_two (by omega)
  have hbound : (2 : ℚ) ^ (52 + 972) ≤ 2 ^ 1023 := by
    calc (2 : ℚ) ^ (52 + 972) = 2 ^ 52 * 2 ^ 972 := pow_add ..
      _ ≤ m * 2 ^ e := mul_le_mul hfull hunit (by positivity) (Nat.cast_nonneg m)
      _ ≤ 2 ^ 1023 := hle
  exact absurd ((pow_le_pow_iff_right₀ one_lt_two).1 hbound) (by decide)

variable {exact : ℚ} {u : UnpackedFloat}

theorem Rounded.faithful_pack (hrounded : Rounded exact u)
    (hfinite : Arith.isFinite (Float.ofModel (Float.Model.pack u)) = true) :
    Faithful exact (toRat (Float.ofModel (Float.Model.pack u))) := by
  change (UnpackedFloat.unpack Format.binary64
    (UnpackedFloat.pack Format.binary64 u)).isFinite = true at hfinite
  change Faithful exact (value (UnpackedFloat.unpack Format.binary64
    (UnpackedFloat.pack Format.binary64 u)))
  cases hrounded with
  | zero sign hfaithful =>
      rw [(Stored.zero sign).unpack_pack]
      exact hfaithful
  | @finite sign mantissa exponent hcanonical hfaithful =>
      rcases Int.lt_or_le 971 exponent with hlarge | hgreatest
      · rw [unpack_pack_infinite hlarge] at hfinite
        cases hfinite
      · rw [unpack_pack_finite hcanonical hgreatest]
        exact hfaithful

theorem Rounded.isFinite_pack (hrounded : Rounded exact u) (hexact : |exact| ≤ 2 ^ 1023) :
    Arith.isFinite (Float.ofModel (Float.Model.pack u)) = true := by
  change (UnpackedFloat.unpack Format.binary64
    (UnpackedFloat.pack Format.binary64 u)).isFinite = true
  cases hrounded with
  | zero sign => rw [(Stored.zero sign).unpack_pack]; rfl
  | @finite sign mantissa exponent hcanonical hfaithful =>
      obtain ⟨hlower, hupper⟩ := abs_le.1 hexact
      have hgreatest : exponent ≤ 971 := by
        apply exponent_le_of_le hcanonical
        cases sign with
        | positive => exact hfaithful.upper _ (representable_two_pow 1023) hupper
        | negative =>
            exact neg_le_neg_iff.1 (hfaithful.lower _ (representable_two_pow 1023).neg hlower)
      rw [unpack_pack_finite hcanonical hgreatest]
      rfl

theorem signed_faithful {magnitude rounded : ℚ} (hfaithful : Faithful magnitude rounded)
    (sign : Sign) : Faithful (signed sign magnitude) (signed sign rounded) := by
  cases sign with
  | positive => exact hfaithful
  | negative => exact hfaithful.neg

theorem rounded_round (sign : Sign) {mantissa : Nat} {exponent : Int} (hmantissa : 0 < mantissa)
    (hleast : -1074 ≤ exponent) : Rounded (signed sign (mantissa * 2 ^ exponent))
      (UnpackedFloat.round Format.binary64 sign mantissa exponent) := by
  obtain ⟨n, f, hn, hround, hrounds⟩ := exists_round sign hmantissa hleast
  rw [hround]
  exact .finite sign hrounds.canonical (signed_faithful hrounds.faithful sign)

theorem rounded_normalize (mantissa : Int) {exponent : Int} (zeroSign : Sign)
    (hleast : -1074 ≤ exponent) : Rounded (mantissa * 2 ^ exponent)
      (UnpackedFloat.normalize Format.binary64 mantissa exponent zeroSign) := by
  unfold UnpackedFloat.normalize
  split
  · next hsign =>
      have hnegative := Int.compare_eq_lt.1 hsign
      have hcast : (((-mantissa).toNat : Nat) : ℚ) = -mantissa := by
        exact_mod_cast congrArg (Int.cast (R := ℚ)) (Int.toNat_of_nonneg (by omega : 0 ≤ -mantissa))
      have hround := rounded_round .negative (by omega : 0 < (-mantissa).toNat) hleast
      rwa [hcast, signed, neg_mul, neg_neg] at hround
  · next hsign =>
      rw [Int.compare_eq_eq.1 hsign, Int.cast_zero, zero_mul]
      exact .zero zeroSign (.refl 0)
  · next hsign =>
      have hpositive := Int.compare_eq_gt.1 hsign
      have hcast : ((mantissa.toNat : Nat) : ℚ) = mantissa := by
        exact_mod_cast congrArg (Int.cast (R := ℚ)) (Int.toNat_of_nonneg hpositive.le)
      have hround := rounded_round .positive (by omega : 0 < mantissa.toNat) hleast
      rwa [hcast, signed] at hround

/-! ## Sums -/

theorem cast_apply (sign : Sign) (n : Nat) : ((sign.apply n : Int) : ℚ) = signed sign n := by
  cases sign <;> simp [Sign.apply, signed]

theorem signed_mul (sign : Sign) (x y : ℚ) : signed sign (x * y) = signed sign x * y := by
  cases sign <;> simp [signed]

theorem rounded_add {u v : UnpackedFloat} (hu : Stored u) (hv : Stored v) :
    Rounded (value u + value v) (UnpackedFloat.add Format.binary64 u v) := by
  cases hu with
  | zero s =>
      cases hv with
      | zero t => cases s <;> cases t <;> exact .zero _ (by simpa [value] using Faithful.refl 0)
      | @finite t n f hn hgreatest =>
          rw [show value (.zero s) = 0 from rfl, zero_add]
          exact (Stored.finite t hn hgreatest).rounded
  | @finite s m e hm hfirst =>
      cases hv with
      | zero =>
          rw [show value (.zero _) = 0 from rfl, add_zero]
          exact (Stored.finite s hm hfirst).rounded
      | @finite t n f hn hsecond =>
          have hleast : -1074 ≤ min e f := le_min hm.least_le hn.least_le
          have hsum : value (.finite s m e hm.positive) + value (.finite t n f hn.positive) =
              ((s.apply (m * 2 ^ (e - min e f).toNat : Nat) +
                t.apply (n * 2 ^ (f - min e f).toNat : Nat) : Int) : ℚ) * 2 ^ (min e f) := by
            rw [value, value, Int.cast_add, cast_apply, cast_apply, add_mul, ← signed_mul,
              ← signed_mul, ← cast_shift m (min_le_left e f), ← cast_shift n (min_le_right e f)]
          rw [hsum, UnpackedFloat.add]
          unfold decreaseExponent
          dsimp only
          rw [Nat.shiftLeft_eq, Nat.shiftLeft_eq]
          exact rounded_normalize _ .positive hleast

variable {x y : Float}

/-- A finite sum is faithfully rounded. -/
theorem faithful_add (hx : Arith.isFinite x = true) (hy : Arith.isFinite y = true)
    (hsum : Arith.isFinite (x + y) = true) : Faithful (toRat x + toRat y) (toRat (x + y)) :=
  (rounded_add (stored hx) (stored hy)).faithful_pack hsum

theorem isFinite_add (hx : Arith.isFinite x = true) (hy : Arith.isFinite y = true)
    (hbound : |toRat x + toRat y| ≤ 2 ^ 1023) : Arith.isFinite (x + y) = true :=
  (rounded_add (stored hx) (stored hy)).isFinite_pack hbound

/-! ## Products -/

theorem signed_mul_signed (s t : Sign) (x y : ℚ) :
    signed s x * signed t y = signed (s * t) (x * y) := by
  cases s <;> cases t
  · exact neg_mul_neg x y
  · exact neg_mul x y
  · exact mul_neg x y
  · rfl

theorem abs_signed (s : Sign) {x : ℚ} (hx : 0 ≤ x) : |signed s x| = x := by
  cases s with
  | positive => exact abs_of_nonneg hx
  | negative => exact (abs_neg x).trans (abs_of_nonneg hx)

/-- A product of two full mantissas that is not too small has an exponent of a double. -/
theorem exponent_add_bounds {m n : Nat} {e f : Int} (hm : Canonical m e) (hn : Canonical n f)
    (hlarge : (2 : ℚ) ^ (-968 : ℤ) ≤ m * 2 ^ e * (n * 2 ^ f)) :
    -1074 ≤ e + f ∧
      e + f ≤ Format.binary64.targetExponent (totalExponent (m * n) (e + f)) := by
  have hproduct : (m : ℚ) * 2 ^ e * (n * 2 ^ f) < 2 ^ (106 + (e + f)) := by
    have hmantissa : (m : ℚ) * n < 2 ^ 53 * 2 ^ 53 := by
      exact_mod_cast Nat.mul_lt_mul'' hm.lt_carry hn.lt_carry
    calc (m : ℚ) * 2 ^ e * (n * 2 ^ f)
        = m * n * 2 ^ (e + f) := by rw [zpow_add₀ two_ne_zero]; ring
      _ < 2 ^ 53 * 2 ^ 53 * 2 ^ (e + f) := mul_lt_mul_of_pos_right hmantissa (zpow_pos two_pos _)
      _ = 2 ^ (106 + (e + f)) := by rw [zpow_add₀ two_ne_zero 106 (e + f)]; norm_num
  have hsum : -968 < 106 + (e + f) :=
    (zpow_lt_zpow_iff_right₀ one_lt_two).1 (hlarge.trans_lt hproduct)
  have hleast := hm.least_le
  have hleast' := hn.least_le
  -- One of the two mantissas is full, because the exponents are not both the least one.
  have hfull : 2 ^ 52 ≤ m * n := by
    rcases Int.lt_or_le (-1074) e with hnormal | hsmall
    · exact (hm.normal hnormal).trans (Nat.le_mul_of_pos_right m hn.positive)
    · exact (hn.normal (by omega)).trans (Nat.le_mul_of_pos_left n hm.positive)
  have hlog := (Nat.le_log2 (Nat.mul_pos hm.positive hn.positive).ne').2 hfull
  rw [targetExponent_eq, totalExponent]
  omega

theorem rounded_mul {u v : UnpackedFloat} (hu : Stored u) (hv : Stored v)
    (hlarge : (2 : ℚ) ^ (-968 : ℤ) ≤ |value u * value v|) :
    Rounded (value u * value v) (UnpackedFloat.mul Format.binary64 u v) := by
  cases hu with
  | zero s =>
      rw [show value (.zero s) = 0 from rfl, zero_mul]
      cases hv <;> exact .zero _ (.refl 0)
  | @finite s m e hm =>
      cases hv with
      | zero t =>
          rw [show value (.zero t) = 0 from rfl, mul_zero]
          exact .zero _ (.refl 0)
      | @finite t n f hn =>
          have hproduct : value (.finite s m e hm.positive) * value (.finite t n f hn.positive) =
              signed (s * t) ((m * n : Nat) * 2 ^ (e + f)) := by
            rw [value, value, signed_mul_signed, zpow_add₀ two_ne_zero]
            congr 1
            push_cast
            ring
          have hpositive := Nat.mul_pos hm.positive hn.positive
          rw [value, value, signed_mul_signed, abs_signed _ (by positivity)] at hlarge
          obtain ⟨hleast, htarget⟩ := exponent_add_bounds hm hn hlarge
          obtain ⟨k, g, hk, hround, hcarried⟩ :=
            exists_roundWithAccuracy (s * t) hpositive hleast rfl htarget
          have hfaithful := faithful_roundedAt (quotient_bounds hpositive hleast rfl htarget)
          rw [Int.toNat_of_nonneg (sub_nonneg.2 htarget), sub_sub_cancel, ← hcarried.value_eq]
            at hfaithful
          rw [hproduct, UnpackedFloat.mul, hround]
          exact .finite _ hcarried.canonical (signed_faithful hfaithful _)

/-- A finite product that is not too small is faithfully rounded. -/
theorem faithful_mul (hx : Arith.isFinite x = true) (hy : Arith.isFinite y = true)
    (hlarge : (2 : ℚ) ^ (-968 : ℤ) ≤ |toRat x * toRat y|)
    (hproduct : Arith.isFinite (x * y) = true) : Faithful (toRat x * toRat y) (toRat (x * y)) :=
  (rounded_mul (stored hx) (stored hy) hlarge).faithful_pack hproduct

theorem isFinite_mul (hx : Arith.isFinite x = true) (hy : Arith.isFinite y = true)
    (hlarge : (2 : ℚ) ^ (-968 : ℤ) ≤ |toRat x * toRat y|)
    (hbound : |toRat x * toRat y| ≤ 2 ^ 1023) : Arith.isFinite (x * y) = true :=
  (rounded_mul (stored hx) (stored hy) hlarge).isFinite_pack hbound

/-- A product that needs no rounding is exact. -/
theorem toRat_mul (hx : Arith.isFinite x = true) (hy : Arith.isFinite y = true)
    (hrepresentable : Representable (toRat x * toRat y))
    (hlarge : (2 : ℚ) ^ (-968 : ℤ) ≤ |toRat x * toRat y|)
    (hbound : |toRat x * toRat y| ≤ 2 ^ 1023) :
    Arith.isFinite (x * y) = true ∧ toRat (x * y) = toRat x * toRat y := by
  have hproduct := isFinite_mul hx hy hlarge hbound
  exact ⟨hproduct, (faithful_mul hx hy hlarge hproduct).eq_of_representable hrepresentable⟩

/-! ## Operands of finite results -/

/-- An unpacked double that is not finite. -/
inductive Special : UnpackedFloat → Prop
  | notANumber : Special .notANumber
  | infinity (sign : Sign) : Special (.infinity sign)

theorem special {x : Float} (hx : Arith.isFinite x = false) : Special x.toModel.unpack := by
  change x.toModel.unpack.isFinite = false at hx
  cases hu : x.toModel.unpack with
  | notANumber => exact .notANumber
  | infinity sign => exact .infinity sign
  | zero | finite =>
      rw [hu] at hx
      cases hx

theorem Special.not_finite_pack (hu : Special u) :
    Arith.isFinite (Float.ofModel (Float.Model.pack u)) = false := by
  cases hu with
  | notANumber => rfl
  | infinity sign =>
      change (UnpackedFloat.unpack Format.binary64
        (packedInfinity Format.binary64 sign)).isFinite = false
      rw [unpack_packedInfinity]
      rfl

theorem special_add {u v : UnpackedFloat} (hspecial : Special u ∨ Special v) :
    Special (UnpackedFloat.add Format.binary64 u v) := by
  rcases hspecial with hu | hv
  · cases hu with
    | notANumber => exact .notANumber
    | infinity s =>
        cases v with
        | infinity t => cases s <;> cases t <;> first | exact .infinity _ | exact .notANumber
        | notANumber => exact .notANumber
        | zero | finite => exact .infinity s
  · cases hv with
    | notANumber => cases u <;> exact .notANumber
    | infinity t =>
        cases u with
        | infinity s => cases s <;> cases t <;> first | exact .infinity _ | exact .notANumber
        | notANumber => exact .notANumber
        | zero | finite => exact .infinity t

theorem special_mul {u v : UnpackedFloat} (hspecial : Special u ∨ Special v) :
    Special (UnpackedFloat.mul Format.binary64 u v) := by
  rcases hspecial with hu | hv
  · cases hu with
    | notANumber => exact .notANumber
    | infinity s => cases v <;> first | exact .notANumber | exact .infinity _
  · cases hv with
    | notANumber => cases u <;> exact .notANumber
    | infinity t => cases u <;> first | exact .notANumber | exact .infinity _

/-- An operation on unpacked doubles that passes on what is not finite has finite operands where
its result is finite. -/
theorem finite_operands {op : Float → Float → Float}
    (core : UnpackedFloat → UnpackedFloat → UnpackedFloat)
    (hop : ∀ x y, op x y =
      Float.ofModel (Float.Model.pack (core x.toModel.unpack y.toModel.unpack)))
    (hcore : ∀ u v, Special u ∨ Special v → Special (core u v))
    (hfinite : Arith.isFinite (op x y) = true) :
    Arith.isFinite x = true ∧ Arith.isFinite y = true := by
  have hspecial (h : Special x.toModel.unpack ∨ Special y.toModel.unpack) : False := by
    rw [hop, (hcore _ _ h).not_finite_pack] at hfinite
    cases hfinite
  exact ⟨Bool.of_not_eq_false fun hx => hspecial (.inl (special hx)),
    Bool.of_not_eq_false fun hy => hspecial (.inr (special hy))⟩

theorem finite_of_add (hsum : Arith.isFinite (x + y) = true) :
    Arith.isFinite x = true ∧ Arith.isFinite y = true :=
  finite_operands (UnpackedFloat.add Format.binary64) (fun _ _ => rfl) (fun _ _ => special_add) hsum

theorem finite_of_mul (hproduct : Arith.isFinite (x * y) = true) :
    Arith.isFinite x = true ∧ Arith.isFinite y = true :=
  finite_operands (UnpackedFloat.mul Format.binary64) (fun _ _ => rfl) (fun _ _ => special_mul)
    hproduct

end Backtest.Double
