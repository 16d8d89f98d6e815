import Backtest.Proofs.Decimal.Half

/-!
# Lawful arithmetic

Laws of the arithmetic of a series that two programs may both rely on: an undefined number passes no
comparison, the strict order is asymmetric, finite numbers are defined, have a defined difference
from themselves and stand for a window length, and small integers are finite numbers.

Doubles are lawful (`Double.lawful`), with all of their infinite and undefined values.
-/

namespace Backtest

open Arith in
structure Lawful (α : Type) [Arith α] : Prop where
  less_defined : ∀ x y : α, less x y = true → isNaN x = false ∧ isNaN y = false
  atMost_defined : ∀ x y : α, atMost x y = true → isNaN x = false ∧ isNaN y = false
  less_asymm : ∀ x y : α, less x y = true → less y x = false
  finite_defined : ∀ x : α, isFinite x = true → isNaN x = false
  self_sub_defined : ∀ x : α, isFinite x = true → isNaN (x - x) = false
  window : ∀ x : α, isFinite x = true → ∃ length, Scalar.windowLength x = some length
  small_finite : ∀ n : Nat, n ≤ 100 → ∃ x : α, ofInt? n = some x ∧ isFinite x = true

namespace Double

open Float.Model Float.Model.UnpackedFloat

/-! ## Order -/

/-- Comparing two doubles the other way round gives the opposite answer. -/
theorem compare_swap (a b : UnpackedFloat) :
    UnpackedFloat.compare b a = (UnpackedFloat.compare a b).map Ordering.swap := by
  have hswap (m n : Nat) (e f : Int) :
      (compare f e).then (compare n m) = ((compare e f).then (compare m n)).swap := by
    have hexponent : compare f e = (compare e f).swap := Std.OrientedCmp.eq_swap
    have hmantissa : compare n m = (compare m n).swap := Std.OrientedCmp.eq_swap
    rw [hexponent, hmantissa]
    cases compare e f <;> rfl
  cases a with
  | notANumber => cases b <;> rfl
  | infinity s =>
      cases b with
      | infinity t => cases s <;> cases t <;> rfl
      | _ => cases s <;> rfl
  | zero s =>
      cases b with
      | infinity t => cases t <;> rfl
      | finite t n f hn => cases t <;> rfl
      | _ => rfl
  | finite s m e hm =>
      cases b with
      | notANumber => rfl
      | infinity t => cases t <;> rfl
      | zero t => cases s <;> rfl
      | finite t n f hn =>
          cases s <;> cases t
          · exact congrArg (fun order => some order.swap) (hswap m n e f)
          · rfl
          · rfl
          · exact congrArg some (hswap m n e f)

theorem compare_undefined {a b : UnpackedFloat} (hundefined : a.isNaN = true ∨ b.isNaN = true) :
    UnpackedFloat.compare a b = none := by
  rcases hundefined with ha | hb
  · cases a <;> first | rfl | exact nomatch ha
  · cases b <;> first | (cases a <;> rfl) | exact nomatch hb

theorem less_iff {x y : Float} : Arith.less x y = true ↔
    UnpackedFloat.compare x.toModel.unpack y.toModel.unpack = some .lt :=
  decide_eq_true_iff.trans (decide_eq_true_iff.trans beq_iff_eq)

theorem atMost_iff {x y : Float} : Arith.atMost x y = true ↔
    (UnpackedFloat.compare x.toModel.unpack y.toModel.unpack).any (·.isLE) = true :=
  decide_eq_true_iff.trans decide_eq_true_iff

theorem defined_of_compare {x y : Float}
    (hcompare : UnpackedFloat.compare x.toModel.unpack y.toModel.unpack ≠ none) :
    Arith.isNaN x = false ∧ Arith.isNaN y = false := by
  constructor
  · exact Bool.eq_false_iff.2 fun hx => hcompare (compare_undefined (.inl hx))
  · exact Bool.eq_false_iff.2 fun hy => hcompare (compare_undefined (.inr hy))

/-! ## Finite doubles -/

theorem unpacked {x : Float} (hx : Arith.isFinite x = true) : Unpacked x.toModel.unpack :=
  unpacked_of_isFinite hx

theorem Unpacked.isNaN {u : UnpackedFloat} (hu : Unpacked u) : u.isNaN = false := by
  cases hu <;> rfl

/-- A finite double minus itself is zero. -/
theorem sub_self {u : UnpackedFloat} (hu : Unpacked u) :
    UnpackedFloat.sub Format.binary64 u u = .zero .positive := by
  cases hu with
  | zero sign => cases sign <;> rfl
  | finite sign mantissa exponent hpositive =>
      rw [UnpackedFloat.sub]
      dsimp only
      rw [Int.sub_self]
      rfl

theorem unpack_half : (Arith.ofDecimal false 5 (-1) : Float).toModel.unpack =
    .finite .positive (2 ^ 52) (-53) (by decide) := by
  have hbits : (Arith.ofDecimal false 5 (-1) : Float).toModel.toBits = 0x3FE0000000000000 := by
    decide +kernel
  rw [Float.Model.unpack, hbits]
  rfl

theorem Unpacked.fits_add_half {u : UnpackedFloat} (hu : Unpacked u) :
    fits (UnpackedFloat.add Format.binary64 u
      (Arith.ofDecimal false 5 (-1) : Float).toModel.unpack) = true := by
  rw [unpack_half]
  cases hu with
  | zero sign => rfl
  | finite sign mantissa exponent hpositive hmantissa hexponent =>
      exact Double.fits_add_half hmantissa hexponent

/-- The sum of a finite double and one half is finite. -/
theorem floor?_add_half {x : Float} (hx : Arith.isFinite x = true) :
    ∃ n, Arith.floor? (x + Arith.ofDecimal false 5 (-1)) = some n := by
  obtain ⟨negative, mantissa, exponent, hsum⟩ := exists_finite_ofFloat
    (x := x + Arith.ofDecimal false 5 (-1)) (unpackExponent_pack (unpacked hx).fits_add_half)
  have hfloor : Arith.floor? (x + Arith.ofDecimal false 5 (-1)) =
      (Binary.ofFloat (x + Arith.ofDecimal false 5 (-1))).floor? := rfl
  rw [hfloor, hsum]
  exact ⟨_, rfl⟩

theorem lawful : Lawful Float where
  less_defined x y hless := defined_of_compare (by
    rw [less_iff.1 hless]
    exact Option.some_ne_none _)
  atMost_defined x y hatMost := defined_of_compare (by
    intro hnone
    rw [atMost_iff, hnone] at hatMost
    exact nomatch hatMost)
  less_asymm x y hless := by
    apply Bool.eq_false_iff.2
    rw [Ne, less_iff, compare_swap, less_iff.1 hless]
    exact nofun
  finite_defined x hx := (unpacked hx).isNaN
  self_sub_defined x hx := by
    change (Float.Model.pack (UnpackedFloat.sub Format.binary64 x.toModel.unpack
      x.toModel.unpack)).unpack.isNaN = false
    rw [sub_self (unpacked hx)]
    rfl
  window x hx := by
    have hdefined : Arith.isNaN x = false := (unpacked hx).isNaN
    obtain ⟨n, hn⟩ := floor?_add_half hx
    rw [Scalar.windowLength, hdefined, hx, hn]
    exact ⟨_, rfl⟩
  small_finite n hn := by
    have hall : ∀ n : Fin 101, (Arith.ofInt? (n.val : Int) : Option Float).any Arith.isFinite =
        true := by
      decide +kernel
    have hany := hall ⟨n, Nat.lt_succ_of_le hn⟩
    cases hint : (Arith.ofInt? (n : Int) : Option Float) with
    | none =>
        rw [hint] at hany
        exact nomatch hany
    | some x =>
        rw [hint] at hany
        exact ⟨x, rfl, hany⟩

end Double

end Backtest
