import Backtest.Proofs.Decimal.Order

/-!
# Arithmetic at rest

What it takes that a constant stays constant under the operations of an indicator.  For numbers, a
number less itself is zero, adding or taking away zero changes nothing, and zero times, over or
under a root is zero; all of this up to equality of values, because a zero may have a sign.  An
operation may instead have no defined value, undefined operands spread, and an undefined number
passes no comparison.

So a value that rests at a number (`RestsAt`) goes on doing so.  Doubles are steady
(`Double.steady`), and so are exact numbers (`Exact.steady`).
-/

namespace Backtest

open Arith

/-- A value is a given number, or it is undefined. -/
def RestsAt {α : Type} [Arith α] (c x : α) : Prop := isNaN x = true ∨ same x c = true

/-- An operation is undefined as soon as an operand is. -/
def Spreads {α : Type} [Arith α] (op : α → α → α) : Prop :=
  ∀ x y, isNaN x = true ∨ isNaN y = true → isNaN (op x y) = true

/-- The operands of a defined result are defined. -/
theorem Spreads.defined {α : Type} [Arith α] {op : α → α → α} (hspreads : Spreads op) {x y : α}
    (hdefined : isNaN (op x y) = false) : isNaN x = false ∧ isNaN y = false := by
  have hoperands := mt (hspreads x y) (Bool.eq_false_iff.1 hdefined)
  rw [not_or, Bool.not_eq_true, Bool.not_eq_true] at hoperands
  exact hoperands

structure Steady (α : Type) [Arith α] : Prop extends Ordered α where
  atMost_defined : ∀ x y : α, atMost x y = true → isNaN x = false ∧ isNaN y = false
  nan_undefined : isNaN (nan : α) = true
  add_spreads : Spreads (α := α) (· + ·)
  sub_spreads : Spreads (α := α) (· - ·)
  mul_spreads : Spreads (α := α) (· * ·)
  div_spreads : Spreads (α := α) (· / ·)
  sqrt_undefined : ∀ x : α, isNaN x = true → isNaN (sqrt x) = true
  zero_finite : isFinite (zero : α) = true
  finite_of_same : ∀ x y : α, same x y = true → isFinite x = true → isFinite y = true
  sub_self : ∀ x y : α, isFinite x = true → same x y = true → RestsAt zero (x - y)
  add_zero : ∀ x z : α, isFinite x = true → same z zero = true → RestsAt x (x + z)
  sub_zero : ∀ x z : α, isFinite x = true → same z zero = true → RestsAt x (x - z)
  zero_mul : ∀ z y : α, same z zero = true → RestsAt zero (z * y)
  mul_zero : ∀ z y : α, same z zero = true → RestsAt zero (y * z)
  zero_div : ∀ z y : α, same z zero = true → RestsAt zero (z / y)
  sqrt_zero : ∀ z : α, same z zero = true → RestsAt zero (sqrt z)
  one_mul_one : (one * one : α) = one
  hundred_mul_one : (ofNat 100 * one : α) = ofNat 100

/-! ## Values at rest -/

namespace Ordered

variable {α : Type} [Arith α] (hordered : Ordered α) {x y z : α}
include hordered

theorem same_iff : same x y = true ↔ atMost x y = true ∧ atMost y x = true := by
  rw [hordered.same_eq, Bool.and_eq_true]

theorem same_symm (hsame : same x y = true) : same y x = true :=
  hordered.same_iff.2 (hordered.same_iff.1 hsame).symm

theorem same_trans (hxy : same x y = true) (hyz : same y z = true) : same x z = true := by
  obtain ⟨hxy, hyx⟩ := hordered.same_iff.1 hxy
  obtain ⟨hyz, hzy⟩ := hordered.same_iff.1 hyz
  exact hordered.same_iff.2 ⟨hordered.atMost_trans x y z hxy hyz,
    hordered.atMost_trans z y x hzy hyx⟩

theorem restsAt_self (c : α) : RestsAt c c := by
  cases hc : isNaN c with
  | true => exact .inl hc
  | false =>
      have hle : atMost c c = true := (hordered.atMost_total c c hc hc).elim id id
      exact .inr (hordered.same_iff.2 ⟨hle, hle⟩)

theorem restsAt_trans {b c x : α} (hx : RestsAt b x) (hb : same b c = true) : RestsAt c x :=
  hx.imp_right fun hsame => hordered.same_trans hsame hb

end Ordered

namespace Steady

variable {α : Type} [Arith α] (hsteady : Steady α) {c x y z : α}
include hsteady

theorem restsAt_nan (c : α) : RestsAt c nan := .inl hsteady.nan_undefined

theorem finite_of_same_const (hc : isFinite c = true) (hx : same x c = true) : isFinite x = true :=
  hsteady.finite_of_same c x (hsteady.same_symm hx) hc

theorem restsAt_sub (hc : isFinite c = true) (hx : RestsAt c x) (hy : RestsAt c y) :
    RestsAt zero (x - y) := by
  rcases hx with hx | hx
  · exact .inl (hsteady.sub_spreads x y (.inl hx))
  · rcases hy with hy | hy
    · exact .inl (hsteady.sub_spreads x y (.inr hy))
    · exact hsteady.sub_self x y (hsteady.finite_of_same_const hc hx)
        (hsteady.same_trans hx (hsteady.same_symm hy))

theorem restsAt_add_zero (hc : isFinite c = true) (hx : RestsAt c x) (hz : RestsAt zero z) :
    RestsAt c (x + z) := by
  rcases hx with hx | hx
  · exact .inl (hsteady.add_spreads x z (.inl hx))
  · rcases hz with hz | hz
    · exact .inl (hsteady.add_spreads x z (.inr hz))
    · exact hsteady.restsAt_trans
        (hsteady.add_zero x z (hsteady.finite_of_same_const hc hx) hz) hx

theorem restsAt_sub_zero (hc : isFinite c = true) (hx : RestsAt c x) (hz : RestsAt zero z) :
    RestsAt c (x - z) := by
  rcases hx with hx | hx
  · exact .inl (hsteady.sub_spreads x z (.inl hx))
  · rcases hz with hz | hz
    · exact .inl (hsteady.sub_spreads x z (.inr hz))
    · exact hsteady.restsAt_trans
        (hsteady.sub_zero x z (hsteady.finite_of_same_const hc hx) hz) hx

theorem restsAt_zero_mul (hz : RestsAt zero z) (y : α) : RestsAt zero (z * y) :=
  hz.elim (fun hz => .inl (hsteady.mul_spreads z y (.inl hz))) (hsteady.zero_mul z y)

theorem restsAt_mul_zero (hz : RestsAt zero z) (y : α) : RestsAt zero (y * z) :=
  hz.elim (fun hz => .inl (hsteady.mul_spreads y z (.inr hz))) (hsteady.mul_zero z y)

theorem restsAt_zero_div (hz : RestsAt zero z) (y : α) : RestsAt zero (z / y) :=
  hz.elim (fun hz => .inl (hsteady.div_spreads z y (.inl hz))) (hsteady.zero_div z y)

theorem restsAt_sqrt_zero (hz : RestsAt zero z) : RestsAt zero (sqrt z) :=
  hz.elim (fun hz => .inl (hsteady.sqrt_undefined z hz)) (hsteady.sqrt_zero z)

/-- Two defined values at rest at the same number are the same. -/
theorem same_of_restsAt (hx : RestsAt c x) (hy : RestsAt c y) (hxdefined : isNaN x = false)
    (hydefined : isNaN y = false) : same x y = true :=
  hsteady.same_trans (hx.resolve_left (Bool.eq_false_iff.1 hxdefined))
    (hsteady.same_symm (hy.resolve_left (Bool.eq_false_iff.1 hydefined)))

/-- Of two values at rest at the same number none is below the other. -/
theorem not_less (hx : RestsAt c x) (hy : RestsAt c y) : less x y = false := by
  apply Bool.eq_false_iff.2
  intro hless
  obtain ⟨hle, hnot⟩ := hsteady.less_iff.1 hless
  obtain ⟨hxdefined, hydefined⟩ := hsteady.atMost_defined x y hle
  rw [(hsteady.same_iff.1 (hsteady.same_of_restsAt hx hy hxdefined hydefined)).2] at hnot
  exact nomatch hnot

/-- A value at rest that is below a level is not at or above it later. -/
theorem not_rises {level : α} (hx : RestsAt c x) (hy : RestsAt c y)
    (hbefore : less x level = true) : atMost level y = false := by
  apply Bool.eq_false_iff.2
  intro hnow
  obtain ⟨hle, hnot⟩ := hsteady.less_iff.1 hbefore
  have hyx := (hsteady.same_iff.1 (hsteady.same_of_restsAt hy hx
    (hsteady.atMost_defined _ _ hnow).2 (hsteady.atMost_defined _ _ hle).1)).1
  rw [hsteady.atMost_trans _ _ _ hnow hyx] at hnot
  exact nomatch hnot

/-- A value at rest that is above a level is not at or below it later. -/
theorem not_falls {level : α} (hx : RestsAt c x) (hy : RestsAt c y)
    (hbefore : less level x = true) : atMost y level = false := by
  apply Bool.eq_false_iff.2
  intro hnow
  obtain ⟨hle, hnot⟩ := hsteady.less_iff.1 hbefore
  have hxy := (hsteady.same_iff.1 (hsteady.same_of_restsAt hx hy
    (hsteady.atMost_defined _ _ hle).2 (hsteady.atMost_defined _ _ hnow).1)).1
  rw [hsteady.atMost_trans _ _ _ hxy hnow] at hnot
  exact nomatch hnot

end Steady

/-! ## Doubles -/

namespace Double

open Float.Model Float.Model.UnpackedFloat

theorem unpack_zero : (Arith.zero : Float).toModel.unpack = .zero .positive := by
  have hbits : (Arith.zero : Float).toModel.toBits = 0 := by
    decide +kernel
  rw [Float.Model.unpack, hbits]
  rfl

/-- Packing what was unpacked gives the same double. -/
theorem pack_unpack (x : Float) : Float.ofModel (Float.Model.pack x.toModel.unpack) = x := by
  have hbits : UnpackedFloat.pack Format.binary64 x.toModel.unpack = x.toModel.toBits.toBitVec :=
    pack_unpack_of_valid x.toModel.valid
  obtain ⟨⟨⟨bits⟩, hvalid⟩⟩ := x
  simp only [Float.Model.pack, hbits]

/-- Doubles that are unpacked alike are the same. -/
theorem eq_of_unpack {x y : Float} (hunpack : x.toModel.unpack = y.toModel.unpack) : x = y := by
  rw [← pack_unpack x, hunpack, pack_unpack]

theorem unpack_of_same_zero {z : Float} (hz : same z Arith.zero = true) :
    ∃ sign, z.toModel.unpack = .zero sign := by
  rw [same_iff, unpack_zero] at hz
  cases hu : z.toModel.unpack with
  | zero sign => exact ⟨sign, rfl⟩
  | notANumber =>
      rw [hu] at hz
      exact nomatch hz
  | infinity sign | finite sign =>
      rw [hu] at hz
      cases sign <;> exact nomatch hz

theorem same_zero {z : Float} {sign : Sign} (hz : z.toModel.unpack = .zero sign) :
    same z Arith.zero = true := by
  rw [same_iff, unpack_zero, hz]
  rfl

/-- A result that is undefined or a zero of either sign rests at zero. -/
theorem restsAt_zero_pack {u : UnpackedFloat} (hu : u = .notANumber ∨ ∃ sign, u = .zero sign) :
    RestsAt Arith.zero (Float.ofModel (Float.Model.pack u)) := by
  rcases hu with rfl | ⟨sign, rfl⟩
  · exact .inl rfl
  · exact .inr (same_zero unpack_packedZero)

/-- A result that is an operand again, or a zero like it, rests at the operand. -/
theorem restsAt_pack {x : Float} {u : UnpackedFloat}
    (hu : u = x.toModel.unpack ∨ (∃ sign, u = .zero sign) ∧ ∃ sign, x.toModel.unpack = .zero sign) :
    RestsAt x (Float.ofModel (Float.Model.pack u)) := by
  rcases hu with rfl | ⟨hu, _, hx⟩
  · rw [pack_unpack]
    exact ordered.restsAt_self x
  · exact ordered.restsAt_trans (restsAt_zero_pack (.inr hu)) (ordered.same_symm (same_zero hx))

/-- An operation that makes of a zero another zero or nothing defined rests at zero there. -/
theorem restsAt_zero_of_same_zero (core : UnpackedFloat → UnpackedFloat)
    (hcore : ∀ sign, core (.zero sign) = .notANumber ∨ ∃ result, core (.zero sign) = .zero result)
    {z : Float} (hz : same z Arith.zero = true) :
    RestsAt Arith.zero (Float.ofModel (Float.Model.pack (core z.toModel.unpack))) := by
  obtain ⟨sign, hz⟩ := unpack_of_same_zero hz
  apply restsAt_zero_pack
  rw [hz]
  exact hcore sign

/-- An operation that keeps its operand beside a zero, up to the sign of a zero, rests at it. -/
theorem restsAt_of_same_zero (core : UnpackedFloat → UnpackedFloat → UnpackedFloat)
    (hkeeps : ∀ u sign, core u (.zero sign) = u ∨
      (∃ result, core u (.zero sign) = .zero result) ∧ ∃ first, u = .zero first)
    (x : Float) {z : Float} (hz : same z Arith.zero = true) :
    RestsAt x (Float.ofModel (Float.Model.pack (core x.toModel.unpack z.toModel.unpack))) := by
  obtain ⟨sign, hz⟩ := unpack_of_same_zero hz
  apply restsAt_pack
  rw [hz]
  exact hkeeps x.toModel.unpack sign

theorem add_zero_unpacked (u : UnpackedFloat) (sign : Sign) :
    UnpackedFloat.add Format.binary64 u (.zero sign) = u ∨
      (∃ result, UnpackedFloat.add Format.binary64 u (.zero sign) = .zero result) ∧
        ∃ first, u = .zero first := by
  cases u with
  | notANumber | infinity | finite => exact .inl rfl
  | zero first => cases first <;> cases sign <;> exact .inr ⟨⟨_, rfl⟩, ⟨_, rfl⟩⟩

/-- To take a zero away is to add the opposite zero. -/
theorem sub_zero_eq_add (u : UnpackedFloat) (sign : Sign) :
    UnpackedFloat.sub Format.binary64 u (.zero sign) =
      UnpackedFloat.add Format.binary64 u (.zero (-sign)) := by
  cases u with
  | notANumber | infinity | finite => rfl
  | zero first => cases first <;> cases sign <;> rfl

theorem unpack_of_undefined {x : Float} (hx : isNaN x = true) : x.toModel.unpack = .notANumber := by
  change x.toModel.unpack.isNaN = true at hx
  cases hu : x.toModel.unpack with
  | notANumber => rfl
  | infinity | zero | finite =>
      rw [hu] at hx
      exact nomatch hx

/-- An operation on unpacked doubles that passes on what is not a number is undefined as soon as an
operand is. -/
theorem spreads_of_unpacked {op : Float → Float → Float}
    (core : UnpackedFloat → UnpackedFloat → UnpackedFloat)
    (hop : ∀ x y, op x y =
      Float.ofModel (Float.Model.pack (core x.toModel.unpack y.toModel.unpack)))
    (hleft : ∀ b, core .notANumber b = .notANumber)
    (hright : ∀ a, core a .notANumber = .notANumber) : Spreads op := by
  intro x y hundefined
  have hcore : core x.toModel.unpack y.toModel.unpack = .notANumber := by
    rcases hundefined with hx | hy
    · rw [unpack_of_undefined hx, hleft]
    · rw [unpack_of_undefined hy, hright]
  rw [hop, hcore]
  rfl

theorem unpack_eq_of_same {x y : Float} (hsame : same x y = true) :
    x = y ∨ (same x Arith.zero = true ∧ same y Arith.zero = true) := by
  change (x == y) = true at hsame
  obtain ⟨_, _, heq | ⟨rfl, rfl⟩ | ⟨rfl, rfl⟩⟩ := Float.beq_iff_ne_nan_and_eq.1 hsame
  · exact .inl heq
  · exact .inr (by decide +kernel)
  · exact .inr (by decide +kernel)

theorem steady : Steady Float where
  toOrdered := ordered
  atMost_defined := lawful.atMost_defined
  nan_undefined := by decide +kernel
  add_spreads := spreads_of_unpacked (UnpackedFloat.add Format.binary64) (fun _ _ => rfl)
    (fun b => by cases b <;> rfl) (fun a => by cases a <;> rfl)
  sub_spreads := spreads_of_unpacked (UnpackedFloat.sub Format.binary64) (fun _ _ => rfl)
    (fun b => by cases b <;> rfl) (fun a => by cases a <;> rfl)
  mul_spreads := spreads_of_unpacked (UnpackedFloat.mul Format.binary64) (fun _ _ => rfl)
    (fun b => by cases b <;> rfl) (fun a => by cases a <;> rfl)
  div_spreads := spreads_of_unpacked (UnpackedFloat.div Format.binary64) (fun _ _ => rfl)
    (fun b => by cases b <;> rfl) (fun a => by cases a <;> rfl)
  sqrt_undefined x hx := by
    change isNaN (Float.ofModel (Float.Model.pack
      (UnpackedFloat.sqrt Format.binary64 x.toModel.unpack))) = true
    rw [unpack_of_undefined hx]
    rfl
  zero_finite := by decide +kernel
  finite_of_same x y hsame hx := by
    rcases unpack_eq_of_same hsame with rfl | ⟨_, hy⟩
    · exact hx
    · obtain ⟨sign, hy⟩ := unpack_of_same_zero hy
      change y.toModel.unpack.isFinite = true
      rw [hy]
      rfl
  sub_self x y hx hsame := by
    apply restsAt_zero_pack
    rcases unpack_eq_of_same hsame with rfl | ⟨hx, hy⟩
    · exact .inr ⟨.positive, sub_self (unpacked hx)⟩
    · obtain ⟨first, hx⟩ := unpack_of_same_zero hx
      obtain ⟨second, hy⟩ := unpack_of_same_zero hy
      rw [hx, hy]
      cases first <;> cases second <;> exact .inr ⟨_, rfl⟩
  add_zero x z _ hz := restsAt_of_same_zero _ add_zero_unpacked x hz
  sub_zero x z _ hz := by
    refine restsAt_of_same_zero _ (fun u sign => ?_) x hz
    rw [sub_zero_eq_add]
    exact add_zero_unpacked u (-sign)
  zero_mul z y hz := by
    refine restsAt_zero_of_same_zero (fun u => UnpackedFloat.mul Format.binary64 u y.toModel.unpack)
      (fun sign => ?_) hz
    cases y.toModel.unpack with
    | notANumber | infinity => exact .inl rfl
    | zero | finite => exact .inr ⟨_, rfl⟩
  mul_zero z y hz := by
    refine restsAt_zero_of_same_zero (UnpackedFloat.mul Format.binary64 y.toModel.unpack)
      (fun sign => ?_) hz
    cases y.toModel.unpack with
    | notANumber | infinity => exact .inl rfl
    | zero | finite => exact .inr ⟨_, rfl⟩
  zero_div z y hz := by
    refine restsAt_zero_of_same_zero (fun u => UnpackedFloat.div Format.binary64 u y.toModel.unpack)
      (fun sign => ?_) hz
    cases y.toModel.unpack with
    | notANumber | zero => exact .inl rfl
    | infinity | finite => exact .inr ⟨_, rfl⟩
  sqrt_zero z hz :=
    restsAt_zero_of_same_zero (UnpackedFloat.sqrt Format.binary64) (fun _ => .inr ⟨_, rfl⟩) hz
  one_mul_one := by decide +kernel
  hundred_mul_one := by decide +kernel

end Double

/-! ## Exact numbers -/

namespace Exact

theorem eq_finite_of_same {x : Exact} {r : Rat} (hsame : same x (.finite r) = true) :
    x = .finite r := by
  cases x with
  | undefined => exact nomatch hsame
  | finite s => exact congrArg finite (eq_of_beq hsame)

theorem eq_finite_of_isFinite {x : Exact} (hx : isFinite x = true) : ∃ r, x = .finite r := by
  cases x with
  | undefined => exact nomatch hx
  | finite r => exact ⟨r, rfl⟩

theorem spreads_lift (f : Rat → Rat → Rat) : Spreads (lift f) := by
  rintro (_ | _) (_ | _) hundefined
  all_goals first | rfl | exact hundefined.elim nofun nofun

theorem restsAt_finite {r s : Rat} (heq : r = s) : RestsAt (finite s) (finite r) :=
  .inr (beq_iff_eq.2 heq)

theorem steady : Steady Exact where
  toOrdered := ordered
  atMost_defined x y hle := by
    cases x with
    | undefined => exact nomatch hle
    | finite =>
        cases y with
        | undefined => exact nomatch hle
        | finite => exact ⟨rfl, rfl⟩
  nan_undefined := rfl
  add_spreads := spreads_lift _
  sub_spreads := spreads_lift _
  mul_spreads := spreads_lift _
  div_spreads x y hundefined := by
    change isNaN (if y = .finite 0 then undefined else lift (· / ·) x y) = true
    split
    · rfl
    · exact spreads_lift _ x y hundefined
  sqrt_undefined _ _ := rfl
  zero_finite := rfl
  finite_of_same x y hsame hx := by
    obtain ⟨r, rfl⟩ := eq_finite_of_isFinite hx
    rw [eq_finite_of_same (ordered.same_symm hsame)]
    rfl
  sub_self x y hx hsame := by
    obtain ⟨r, rfl⟩ := eq_finite_of_isFinite hx
    rw [eq_finite_of_same (ordered.same_symm hsame)]
    exact restsAt_finite Rat.sub_self
  add_zero x z hx hz := by
    obtain ⟨r, rfl⟩ := eq_finite_of_isFinite hx
    rw [eq_finite_of_same hz]
    exact restsAt_finite (Rat.add_zero r)
  sub_zero x z hx hz := by
    obtain ⟨r, rfl⟩ := eq_finite_of_isFinite hx
    rw [eq_finite_of_same hz]
    exact restsAt_finite (sub_zero r)
  zero_mul z y hz := by
    rw [eq_finite_of_same hz]
    cases y with
    | undefined => exact .inl rfl
    | finite s => exact restsAt_finite (Rat.zero_mul s)
  mul_zero z y hz := by
    rw [eq_finite_of_same hz]
    cases y with
    | undefined => exact .inl rfl
    | finite s => exact restsAt_finite (Rat.mul_zero s)
  zero_div z y hz := by
    rw [eq_finite_of_same hz]
    change RestsAt zero (if y = .finite 0 then undefined else lift (· / ·) _ y)
    split
    · exact .inl rfl
    · cases y with
      | undefined => exact .inl rfl
      | finite s => exact restsAt_finite (zero_div s)
  sqrt_zero _ _ := .inl rfl
  one_mul_one := by decide +kernel
  hundred_mul_one := by decide +kernel

end Exact

end Backtest
