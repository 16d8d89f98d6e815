import Mathlib

/-!
# Faithful rounding

The exact numbers with 53 bits and an exponent from `-1074` on are representable: they would be the
values of doubles, if there were no largest one.  A rounding is faithful if it does not lead across
a representable number.  Rounding to one of the two multiples of a unit around a number is faithful
as long as the lower one fills 53 bits or the unit is the least one (`faithful_of_down`); which of
the two is taken does not matter.
-/

namespace Backtest.Double

/-- The exact numbers that have 53 bits and an exponent from `-1074` on. -/
def Representable (r : ℚ) : Prop :=
  ∃ m e : ℤ, m.natAbs < 2 ^ 53 ∧ -1074 ≤ e ∧ r = m * 2 ^ e

/-- No representable number lies between a number and what it is rounded to. -/
structure Faithful (exact rounded : ℚ) : Prop where
  lower : ∀ z, Representable z → z ≤ exact → z ≤ rounded
  upper : ∀ z, Representable z → exact ≤ z → rounded ≤ z

/-! ## Representable numbers -/

namespace Representable

variable {r s : ℚ}

theorem neg (hr : Representable r) : Representable (-r) := by
  obtain ⟨m, e, hm, he, rfl⟩ := hr
  exact ⟨-m, e, by rwa [Int.natAbs_neg], he, by push_cast; ring⟩

theorem abs (hr : Representable r) : Representable |r| := by
  rcases abs_choice r with h | h
  · exact h.symm ▸ hr
  · exact h.symm ▸ hr.neg

theorem max (hr : Representable r) (hs : Representable s) : Representable (max r s) := by
  rcases max_choice r s with h | h
  · exact h.symm ▸ hr
  · exact h.symm ▸ hs

theorem mul_two_pow (hr : Representable r) (k : ℕ) : Representable (2 ^ k * r) := by
  obtain ⟨m, e, hm, he, rfl⟩ := hr
  refine ⟨m, e + k, hm, by omega, ?_⟩
  rw [zpow_add₀ two_ne_zero, zpow_natCast]
  ring

theorem double (hr : Representable r) : Representable (2 * r) := by
  have hdouble := hr.mul_two_pow 1
  rwa [pow_one] at hdouble

/-- A number that is not close to zero has a representable half. -/
theorem half (hr : Representable r) (hlarge : 1 ≤ |r|) : Representable (r / 2) := by
  obtain ⟨m, e, hm, he, rfl⟩ := hr
  rcases Int.lt_or_eq_of_le he with hlt | rfl
  · refine ⟨m, e - 1, hm, by omega, ?_⟩
    rw [zpow_sub₀ two_ne_zero, zpow_one]
    ring
  · have hmantissa : |(m : ℚ)| < 2 ^ 53 := by
      rw [← Int.cast_abs, Int.abs_eq_natAbs]
      exact_mod_cast hm
    have hunit : (2 : ℚ) ^ (-1074 : ℤ) ≤ (2 ^ 53)⁻¹ := by
      rw [← zpow_natCast, ← zpow_neg]
      exact zpow_le_zpow_right₀ one_le_two (by decide)
    have hpositive : (0 : ℚ) < 2 ^ (-1074 : ℤ) := zpow_pos two_pos _
    have hsmall : |(m : ℚ) * 2 ^ (-1074 : ℤ)| < 1 := by
      rw [abs_mul, abs_of_pos hpositive]
      calc |(m : ℚ)| * 2 ^ (-1074 : ℤ)
          ≤ |(m : ℚ)| * (2 ^ 53)⁻¹ := mul_le_mul_of_nonneg_left hunit (abs_nonneg _)
        _ < 2 ^ 53 * (2 ^ 53)⁻¹ := mul_lt_mul_of_pos_right hmantissa (by norm_num)
        _ = 1 := by norm_num
    exact absurd hlarge (not_le.2 hsmall)

end Representable

theorem representable_int {n : ℤ} (hn : n.natAbs < 2 ^ 53) : Representable n :=
  ⟨n, 0, hn, by decide, by rw [zpow_zero, mul_one]⟩

theorem representable_two_pow (k : ℕ) : Representable (2 ^ k) := by
  have hunit := (representable_int (n := 1) (by decide)).mul_two_pow k
  rwa [Int.cast_one, mul_one] at hunit

/-! ## Faithful roundings -/

namespace Faithful

variable {exact rounded : ℚ}

theorem refl (q : ℚ) : Faithful q q :=
  ⟨fun _ _ => id, fun _ _ => id⟩

theorem neg (hfaithful : Faithful exact rounded) : Faithful (-exact) (-rounded) where
  lower z hz hle := neg_le_neg_iff.1 (by
    rw [neg_neg]
    exact hfaithful.upper (-z) hz.neg (le_neg.1 hle))
  upper z hz hle := neg_le_neg_iff.1 (by
    rw [neg_neg]
    exact hfaithful.lower (-z) hz.neg (neg_le.1 hle))

theorem eq_of_representable (hfaithful : Faithful exact rounded) (hexact : Representable exact) :
    rounded = exact :=
  le_antisymm (hfaithful.upper exact hexact le_rfl) (hfaithful.lower exact hexact le_rfl)

end Faithful

/-- A representable number whose exponent is below that of a full mantissa is below it. -/
theorem lt_of_exponent_lt {m : ℤ} {n : ℕ} {e f : ℤ} (hm : m.natAbs < 2 ^ 53) (hn : 2 ^ 52 ≤ n)
    (hlt : e < f) : (m : ℚ) * 2 ^ e < n * 2 ^ f := by
  have hmantissa : (m : ℚ) < 2 ^ 53 := by
    have hbound : m < 2 ^ 53 := by omega
    exact_mod_cast hbound
  have hfull : (2 : ℚ) ^ 52 ≤ n := by exact_mod_cast hn
  calc (m : ℚ) * 2 ^ e
      < 2 ^ 53 * 2 ^ e := mul_lt_mul_of_pos_right hmantissa (zpow_pos two_pos _)
    _ = 2 ^ 52 * 2 ^ (e + 1) := by rw [zpow_add₀ two_ne_zero, zpow_one]; ring
    _ ≤ n * 2 ^ f := mul_le_mul hfull (zpow_le_zpow_right₀ one_le_two hlt) (by positivity)
        (Nat.cast_nonneg n)

/-- A number whose exponent is not below that of a unit is a multiple of the unit. -/
theorem multiple_of_unit (m : ℤ) {e unit : ℤ} (he : unit ≤ e) :
    (m : ℚ) * 2 ^ e = (m * 2 ^ (e - unit).toNat : ℤ) * 2 ^ unit := by
  obtain ⟨k, rfl⟩ := Int.exists_add_of_le he
  rw [add_sub_cancel_left, Int.toNat_natCast, zpow_add₀ two_ne_zero, zpow_natCast]
  push_cast
  ring

/-- A number is faithfully rounded to the multiple of a unit below it or to the next one. -/
theorem faithful_of_down {exact : ℚ} {down rounded : ℕ} {unit : ℤ}
    (hfull : -1074 < unit → 2 ^ 52 ≤ down) (hbelow : down * 2 ^ unit ≤ exact)
    (habove : exact < (down + 1) * 2 ^ unit) (hle : down ≤ rounded) (hge : rounded ≤ down + 1)
    (hexact : exact = down * 2 ^ unit → rounded = down) : Faithful exact (rounded * 2 ^ unit) := by
  have hpositive : (0 : ℚ) < 2 ^ unit := zpow_pos two_pos _
  have hrounded : (down : ℚ) * 2 ^ unit ≤ rounded * 2 ^ unit :=
    mul_le_mul_of_nonneg_right (by exact_mod_cast hle) hpositive.le
  constructor
  · rintro z ⟨m, e, hm, he, rfl⟩ hz
    rcases lt_or_ge e unit with hlt | hge
    · exact (lt_of_exponent_lt hm (hfull (by omega)) hlt).le.trans hrounded
    · rw [multiple_of_unit m hge] at hz ⊢
      have hcount := lt_of_mul_lt_mul_right (hz.trans_lt habove) hpositive.le
      have hcount : m * 2 ^ (e - unit).toNat < down + 1 := by exact_mod_cast hcount
      refine mul_le_mul_of_nonneg_right ?_ hpositive.le
      exact_mod_cast (Int.lt_add_one_iff.1 hcount).trans (by exact_mod_cast hle)
  · rintro z ⟨m, e, hm, he, rfl⟩ hz
    rcases lt_or_ge e unit with hlt | hge'
    · exact absurd (hbelow.trans hz) (not_le.2 (lt_of_exponent_lt hm (hfull (by omega)) hlt))
    · rw [multiple_of_unit m hge'] at hz ⊢
      have hcount := le_of_mul_le_mul_right (hbelow.trans hz) hpositive
      have hcount : (down : ℤ) ≤ m * 2 ^ (e - unit).toNat := by exact_mod_cast hcount
      refine mul_le_mul_of_nonneg_right ?_ hpositive.le
      rcases hcount.lt_or_eq with hlt | heq
      · have hnext : (rounded : ℤ) ≤ m * 2 ^ (e - unit).toNat := by omega
        exact_mod_cast hnext
      · have hkept : exact = down * 2 ^ unit := by
          refine le_antisymm ?_ hbelow
          rw [← heq] at hz
          exact_mod_cast hz
        rw [hexact hkept, ← heq, Int.cast_natCast]

end Backtest.Double
