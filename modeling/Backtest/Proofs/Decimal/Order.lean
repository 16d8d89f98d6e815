import Backtest.Proofs.Decimal.Lawful
import Backtest.Proofs.Exact
import Mathlib.Data.Prod.Lex

/-!
# Ordered arithmetic

What ranking needs of the comparisons of an arithmetic: any two defined numbers compare, comparing
is transitive, and the strict test and the test for equal values are those of the order.

Doubles are ordered (`Double.ordered`): all of them but the undefined ones compare by sign, then by
exponent, then by mantissa.  Exact numbers are ordered too (`Exact.ordered`).
-/

namespace Backtest

open Arith in
structure Ordered (α : Type) [Arith α] : Prop where
  atMost_trans : ∀ x y z : α, atMost x y = true → atMost y z = true → atMost x z = true
  atMost_total : ∀ x y : α, isNaN x = false → isNaN y = false →
    atMost x y = true ∨ atMost y x = true
  less_eq : ∀ x y : α, less x y = (atMost x y && !atMost y x)
  same_eq : ∀ x y : α, same x y = (atMost x y && atMost y x)

namespace Ordered

open Arith

variable {α : Type} [Arith α] (hordered : Ordered α)
include hordered

theorem less_iff {x y : α} : less x y = true ↔ atMost x y = true ∧ atMost y x = false := by
  rw [hordered.less_eq, Bool.and_eq_true, Bool.not_eq_true']

theorem not_less_of_less {x y : α} (hless : less x y = true) : less y x = false := by
  rw [hordered.less_eq, (hordered.less_iff.1 hless).2, Bool.false_and]

theorem not_same_of_less {x y : α} (hless : less x y = true) :
    same x y = false ∧ same y x = false := by
  rw [hordered.same_eq, hordered.same_eq, (hordered.less_iff.1 hless).2, Bool.and_false,
    Bool.false_and]
  exact ⟨rfl, rfl⟩

/-- Of two defined numbers, the one is below the other or it is at least as large. -/
theorem less_eq_not_atMost {x y : α} (hx : isNaN x = false) (hy : isNaN y = false) :
    less x y = !atMost y x := by
  rw [hordered.less_eq]
  cases hyx : atMost y x with
  | true => rw [Bool.not_true, Bool.and_false]
  | false =>
      have hxy := (hordered.atMost_total x y hx hy).resolve_right (Bool.eq_false_iff.1 hyx)
      rw [hxy, Bool.not_false, Bool.and_self]

end Ordered

namespace Double

open Float.Model Float.Model.UnpackedFloat

/-- The sign of a double with its infinities outermost, its exponent and its mantissa, the last two
counted downwards below zero. -/
def key : UnpackedFloat → Int ×ₗ Int ×ₗ Int
  | .notANumber | .zero _ => toLex (0, toLex (0, 0))
  | .infinity .negative => toLex (-2, toLex (0, 0))
  | .infinity .positive => toLex (2, toLex (0, 0))
  | .finite .negative mantissa exponent _ => toLex (-1, toLex (-exponent, -mantissa))
  | .finite .positive mantissa exponent _ => toLex (1, toLex (exponent, mantissa))

/-- Comparing by exponent, then by mantissa, is the order of the pairs. -/
theorem isLE_then_iff (e f : Int) (m n : Nat) :
    ((compare e f).then (compare m n)).isLE = true ↔
      (toLex (e, (m : Int)) : Int ×ₗ Int) ≤ toLex (f, (n : Int)) := by
  rw [Prod.Lex.toLex_le_toLex]
  rcases Int.lt_trichotomy e f with hlt | heq | hgt
  · rw [compare_lt_iff_lt.2 hlt]
    exact iff_of_true rfl (.inl hlt)
  · rw [compare_eq_iff_eq.2 heq, Ordering.eq_then, Std.isLE_compare]
    simp [heq]
  · rw [compare_gt_iff_gt.2 hgt]
    exact iff_of_false nofun (by dsimp only; omega)

/-- Below zero the pairs are compared the other way round. -/
theorem toLex_neg_le_iff (e f m n : Int) :
    (toLex (-e, -m) : Int ×ₗ Int) ≤ toLex (-f, -n) ↔
      (toLex (f, n) : Int ×ₗ Int) ≤ toLex (e, m) := by
  rw [Prod.Lex.toLex_le_toLex, Prod.Lex.toLex_le_toLex]
  dsimp only
  omega

theorem isLE_compare_iff {a b : UnpackedFloat} (ha : a.isNaN = false) (hb : b.isNaN = false) :
    (UnpackedFloat.compare a b).any (·.isLE) = true ↔ key a ≤ key b := by
  have hsame (sign : Int) (p q : Int ×ₗ Int) :
      (toLex (sign, p) : Int ×ₗ Int ×ₗ Int) ≤ toLex (sign, q) ↔ p ≤ q := by
    simp [Prod.Lex.toLex_le_toLex]
  cases a with
  | notANumber => exact nomatch ha
  | infinity s =>
      cases b with
      | notANumber => exact nomatch hb
      | infinity t => cases s <;> cases t <;> decide
      | zero t => cases s <;> simp [UnpackedFloat.compare, key, Prod.Lex.toLex_le_toLex]
      | finite t n f hn =>
          cases s <;> cases t <;> simp [UnpackedFloat.compare, key, Prod.Lex.toLex_le_toLex]
  | zero s =>
      cases b with
      | notANumber => exact nomatch hb
      | zero t => simp [UnpackedFloat.compare, key]
      | _ t => cases t <;> simp [UnpackedFloat.compare, key, Prod.Lex.toLex_le_toLex]
  | finite s m e hm =>
      cases b with
      | notANumber => exact nomatch hb
      | finite t n f hn =>
          cases s <;> cases t
          · -- Both are negative: the positive ones compare the other way round.
            have hswap := compare_swap (.finite .positive m e hm) (.finite .positive n f hn)
            have hdown : UnpackedFloat.compare (.finite .negative m e hm)
                (.finite .negative n f hn) = some ((compare f e).then (compare n m)) := hswap.symm
            rw [hdown, key, key, hsame, toLex_neg_le_iff]
            exact isLE_then_iff f e n m
          · simp [UnpackedFloat.compare, key, Prod.Lex.toLex_le_toLex]
          · simp [UnpackedFloat.compare, key, Prod.Lex.toLex_le_toLex]
          · rw [key, key, hsame]
            exact isLE_then_iff e f m n
      | _ t => cases s <;> cases t <;> simp [UnpackedFloat.compare, key, Prod.Lex.toLex_le_toLex]

theorem atMost_iff_key {x y : Float} (hx : Arith.isNaN x = false) (hy : Arith.isNaN y = false) :
    Arith.atMost x y = true ↔ key x.toModel.unpack ≤ key y.toModel.unpack :=
  atMost_iff.trans (isLE_compare_iff hx hy)

theorem same_iff {x y : Float} : Arith.same x y = true ↔
    UnpackedFloat.compare x.toModel.unpack y.toModel.unpack = some .eq := by
  change (UnpackedFloat.compare x.toModel.unpack y.toModel.unpack == some .eq) = true ↔ _
  exact beq_iff_eq

theorem ordered : Ordered Float where
  atMost_trans x y z hxy hyz := by
    have hdefined := lawful.atMost_defined x y hxy
    have hlast := (lawful.atMost_defined y z hyz).2
    rw [atMost_iff_key hdefined.1 hdefined.2] at hxy
    rw [atMost_iff_key hdefined.2 hlast] at hyz
    rw [atMost_iff_key hdefined.1 hlast]
    exact le_trans hxy hyz
  atMost_total x y hx hy := by
    rw [atMost_iff_key hx hy, atMost_iff_key hy hx]
    exact le_total _ _
  less_eq x y := by
    rw [Bool.eq_iff_iff, less_iff, Bool.and_eq_true, Bool.not_eq_true', ← Bool.not_eq_true,
      atMost_iff, atMost_iff, compare_swap x.toModel.unpack]
    cases UnpackedFloat.compare x.toModel.unpack y.toModel.unpack with
    | none => decide
    | some order => cases order <;> decide
  same_eq x y := by
    rw [Bool.eq_iff_iff, same_iff, Bool.and_eq_true, atMost_iff, atMost_iff,
      compare_swap x.toModel.unpack]
    cases UnpackedFloat.compare x.toModel.unpack y.toModel.unpack with
    | none => decide
    | some order => cases order <;> decide

end Double

namespace Exact

theorem ordered : Ordered Exact where
  atMost_trans x y z hxy hyz := by
    cases x with
    | undefined => exact nomatch hxy
    | finite x =>
        cases y with
        | undefined => exact nomatch hyz
        | finite y =>
            cases z with
            | undefined => exact nomatch hyz
            | finite z =>
                exact decide_eq_true (Rat.le_trans (of_decide_eq_true hxy) (of_decide_eq_true hyz))
  atMost_total x y hx hy := by
    cases x with
    | undefined => exact nomatch hx
    | finite x =>
        cases y with
        | undefined => exact nomatch hy
        | finite y => exact Rat.le_total.imp decide_eq_true decide_eq_true
  less_eq x y := by
    cases x with
    | undefined => rfl
    | finite x =>
        cases y with
        | undefined => rfl
        | finite y =>
            have hless : x < y ↔ x ≤ y ∧ ¬ y ≤ x :=
              ⟨fun h => ⟨Rat.le_of_lt h, Rat.not_le.2 h⟩, fun h => Rat.not_le.1 h.2⟩
            change decide (x < y) = (decide (x ≤ y) && !decide (y ≤ x))
            rw [decide_eq_decide.2 hless, Bool.decide_and, decide_not]
  same_eq x y := by
    cases x with
    | undefined => rfl
    | finite x =>
        cases y with
        | undefined => rfl
        | finite y =>
            have hsame : x = y ↔ x ≤ y ∧ y ≤ x :=
              ⟨fun h => h ▸ ⟨Rat.le_refl, Rat.le_refl⟩, fun h => Rat.le_antisymm h.1 h.2⟩
            change (x == y) = (decide (x ≤ y) && decide (y ≤ x))
            rw [beq_eq_decide, decide_eq_decide.2 hsame, Bool.decide_and]

end Exact

end Backtest
