import Backtest.Command.Value
import Backtest.Proofs.Decimal.Conversion
import Backtest.Proofs.Search.GridSize

/-!
# The end of an expansion

A range is expanded step by step until a value is beyond the greatest one.  Where its bounds and its
step are numbers, nothing else brings the expansion to an end but a count of steps that is too large
for a number (`Progression.toList_cases`): this is no way out that anyone would wait for, and it is
not an error of the input.  It is what happens to a bound that is undefined or infinite
(`not_passes_of_unbounded`).  Bounds that are finite and not too far apart, counted in steps, are
passed (`Moderate.exists_passes`).

A text on the command line always gives a range between two numbers, finite or not
(`expansion_ends`).
-/

namespace Backtest

open Arith Outcome

namespace Search

section Numbers

variable {α : Type} [Arith α]

/-- Equal steps between two numbers. -/
def Progression.between (least greatest step : α) (whole : Bool) : Progression α :=
  ⟨.real least, .real greatest, .real step, whole⟩

/-- After a count of steps a value is beyond the greatest one. -/
def Passes (least greatest step : α) (count : Nat) : Prop :=
  ∃ steps : α, ofInt? count = some steps ∧
    less (greatest + tolerance) (least + steps * step) = true

namespace Progression

variable {least greatest step : α} {whole : Bool}

theorem valueAfter_between (count : Nat) :
    (between least greatest step whole).valueAfter count =
      (Scalar.ofInt count).map fun steps => .real (least + steps * step) := by
  have hmul : (Number.int count : Number α).mul (.real step) =
      (Scalar.ofInt count).map fun steps => .real (steps * step) := by
    cases hsteps : (Scalar.ofInt count : Outcome α) with
    | error fault => exact congrArg (· >>= _) hsteps
    | ok steps => exact congrArg (· >>= _) hsteps
  rw [valueAfter]
  change (Number.int count : Number α).mul (.real step) >>= _ = _
  rw [hmul]
  cases (Scalar.ofInt count : Outcome α) <;> rfl

/-- A number is always listed. -/
theorem exists_listed_real (values : Progression α) (x : α) :
    ∃ item, values.listed (.real x) = .ok item := by
  cases hkind : values.whole with
  | false =>
      refine ⟨.real (Arith.roundTo 8 x), ?_⟩
      rw [listed, hkind]
      rfl
  | true =>
      cases hwhole : isWhole (Arith.roundTo 8 x) with
      | false =>
          refine ⟨.real (Arith.roundTo 8 x), ?_⟩
          rw [listed, hkind]
          dsimp only [Number.roundTo]
          rw [if_pos rfl, Number.toReal]
          dsimp only [bind, Except.bind]
          rw [hwhole]
          rfl
      | true =>
          have hfloor : ∃ n, floor? (Arith.roundTo 8 x) = some n := by
            unfold isWhole at hwhole
            cases hfloor : floor? (Arith.roundTo 8 x) with
            | none => rw [hfloor] at hwhole; cases hwhole
            | some n => exact ⟨n, rfl⟩
          obtain ⟨n, hn⟩ := hfloor
          refine ⟨.int n, ?_⟩
          rw [listed, hkind]
          dsimp only [Number.roundTo]
          rw [if_pos rfl, Number.toReal]
          dsimp only [bind, Except.bind]
          have hnumber : Number.floorOf (Arith.roundTo 8 x) = .ok n := by
            rw [Number.floorOf, hn]
          rw [hwhole]
          exact congrArg (· >>= fun n => pure (Scalar.int n)) hnumber

/-- One round: the count has no number, its value is beyond the greatest one, or the next round
follows. -/
theorem valuesFrom_succ (fuel count : Nat) :
    let values := between least greatest step whole
    ((ofInt? count : Option α) = none ∧
        values.valuesFrom (fuel + 1) count = .error .integerTooLarge) ∨
      ((ofInt? count : Option α) ≠ none ∧ Passes least greatest step count ∧
        values.valuesFrom (fuel + 1) count = .ok []) ∨
      ((ofInt? count : Option α) ≠ none ∧ ¬ Passes least greatest step count ∧
        ∃ item, values.valuesFrom (fuel + 1) count =
          (values.valuesFrom fuel (count + 1)).map (item :: ·)) := by
  dsimp only
  rw [valuesFrom, valueAfter_between, Scalar.ofInt, Passes]
  cases (ofInt? (count : Int) : Option α) with
  | none => exact .inl ⟨rfl, rfl⟩
  | some steps =>
      refine .inr ?_
      cases hless : less (greatest + tolerance) (least + steps * step) with
      | true =>
          refine .inl ⟨Option.some_ne_none steps, ⟨steps, rfl, hless⟩, ?_⟩
          have hbeyond : (between least greatest step whole).isBeyond
              (.real (least + steps * step)) = .ok true := congrArg Except.ok hless
          exact bind_eq_ok.2 ⟨_, rfl, bind_eq_ok.2 ⟨true, hbeyond, rfl⟩⟩
      | false =>
          refine .inr ⟨Option.some_ne_none steps, ?_, ?_⟩
          · rintro ⟨other, hother, hpast⟩
            rw [← Option.some.inj hother, hless] at hpast
            cases hpast
          · obtain ⟨item, hitem⟩ := exists_listed_real (between least greatest step whole)
              (least + steps * step)
            refine ⟨item, ?_⟩
            have hbeyond : (between least greatest step whole).isBeyond
                (.real (least + steps * step)) = .ok false := congrArg Except.ok hless
            dsimp only [Except.map, bind, Except.bind]
            rw [hbeyond]
            dsimp only
            rw [if_neg Bool.false_ne_true, hitem]
            cases (between least greatest step whole).valuesFrom fuel (count + 1) <;> rfl

/-- What ends an expansion: a value beyond the greatest one, a count that has no number, or the end
of the fuel. -/
theorem valuesFrom_cases (fuel count : Nat) :
    let values := between least greatest step whole
    (∃ last : Nat, Passes least greatest step last ∧
        ∃ items, values.valuesFrom fuel count = .ok items) ∨
      (∃ last : Nat, (ofInt? last : Option α) = none ∧
        (∀ m : Nat, count ≤ m → m < last → ¬ Passes least greatest step m) ∧
        values.valuesFrom fuel count = .error .integerTooLarge) ∨
      ∀ m : Nat, count ≤ m → m < count + fuel → (ofInt? m : Option α) ≠ none := by
  dsimp only
  induction fuel generalizing count with
  | zero => exact .inr (.inr fun m hm hlt => absurd hlt (not_lt.2 hm))
  | succ fuel ih =>
      rcases @valuesFrom_succ α _ least greatest step whole fuel count with
        ⟨hnone, herror⟩ | ⟨-, hpasses, hok⟩ | ⟨hsome, hstays, item, hnext⟩
      · exact .inr (.inl ⟨count, hnone, fun m hm hlt => absurd hlt (not_lt.2 hm), herror⟩)
      · exact .inl ⟨count, hpasses, [], hok⟩
      · have hlater {m : Nat} (hm : count ≤ m) (hne : m ≠ count) : count + 1 ≤ m := by omega
        rcases ih (count + 1) with ⟨last, hpasses, items, hitems⟩ | ⟨last, hnone, hbefore, herror⟩ |
          hfuel
        · rw [hnext, hitems]
          exact .inl ⟨last, hpasses, item :: items, rfl⟩
        · rw [hnext, herror]
          refine .inr (.inl ⟨last, hnone, fun m hm hlt => ?_, rfl⟩)
          rcases eq_or_ne m count with rfl | hne
          · exact hstays
          · exact hbefore m (hlater hm hne) hlt
        · refine .inr (.inr fun m hm hlt => ?_)
          rcases eq_or_ne m count with rfl | hne
          · exact hsome
          · exact hfuel m (hlater hm hne) (by omega)

end Progression

/-- The step that is taken: one in the place of a step that is not positive. -/
def stepUsed (step : α) : α := if Number.intBelow 0 step then step else one

/-- A range between two numbers. -/
structure Between (range : Range α) (least greatest step : α) : Prop where
  least_eq : range.least = .real least
  greatest_eq : range.greatest = .real greatest
  step_eq : range.step = .real step

theorem Between.expand_eq {range : Range α} {least greatest step : α}
    (hbetween : Between range least greatest step) :
    expand range =
      if less greatest least then
        .error (.invertedRange range.name range.least.toText range.greatest.toText)
      else (Progression.between least greatest (stepUsed step) (range.kind = "int")).toList := by
  have habove : range.least.isAbove range.greatest = .ok (less greatest least) := by
    have hnumber (x : α) : Number.ofScalar (.real x) = .ok (.real x) := rfl
    rw [hbetween.least_eq, hbetween.greatest_eq]
    exact Scalar.isAbove_of_numbers (hnumber least) (hnumber greatest)
  have hstep : stepOf range = .ok (.real (stepUsed step)) := by
    rw [stepOf, hbetween.step_eq, stepUsed]
    change (.ok (if Number.intBelow 0 step then .real step else .real one) :
      Outcome (Number α)) = _
    split <;> rfl
  have hvalues : progressionOf range =
      .ok (Progression.between least greatest (stepUsed step) (range.kind = "int")) := by
    rw [progressionOf, hstep, hbetween.least_eq, hbetween.greatest_eq]
    rfl
  rw [expand, habove, hvalues]
  cases less greatest least <;> rfl

end Numbers

/-- An expansion ends with a list or with an error of the input. -/
def Ends {α : Type} (outcome : Outcome (List (Scalar α))) : Prop :=
  (∃ items, outcome = .ok items) ∨ ∃ fault, outcome = .error fault ∧ fault.kind = .invalid

/-! ## Doubles -/

open Double

variable {least greatest step : Float}

/-- Not every count within the fuel has a double. -/
theorem Progression.lt_stepBound (values : Progression Float) :
    (2 ^ 54 - 1) * 2 ^ 970 < values.stepBound := by
  have hpower (k n : Nat) (hn : n = 54 + k) : (2 ^ 54 - 1) * 2 ^ k ≤ Nat.pow 2 n := by
    rw [hn, Nat.pow_eq, pow_add]
    exact Nat.mul_le_mul_right _ (Nat.sub_le ..)
  obtain ⟨n, hn⟩ : ∃ n, n = 1024 := ⟨_, rfl⟩
  have hbound := hpower 970 n hn
  generalize (2 ^ 54 - 1) * 2 ^ 970 = threshold at hbound ⊢
  rw [stepBound, ← hn]
  dsimp only
  omega

/-- An expansion ends with a list if some value is beyond the greatest one, and otherwise at a count
that has no double. -/
theorem Progression.toList_cases (least greatest step : Float) (whole : Bool) :
    (∃ count, Passes least greatest step count) ∧
        (∃ items, (between least greatest step whole).toList = .ok items) ∨
      (¬ ∃ count, Passes least greatest step count) ∧
        (between least greatest step whole).toList = .error .integerTooLarge := by
  rcases @valuesFrom_cases Float _ least greatest step whole
      (between least greatest step whole).stepBound 0 with
    ⟨last, hpasses, hitems⟩ | ⟨last, hnone, hbefore, herror⟩ | hfuel
  · exact .inl ⟨⟨last, hpasses⟩, hitems⟩
  · refine .inr ⟨?_, herror⟩
    rintro ⟨count, hpasses⟩
    rcases Nat.lt_or_ge count last with hlt | hge
    · exact hbefore count (Nat.zero_le _) hlt hpasses
    · -- Larger counts have no double either.
      obtain ⟨steps, hsteps, -⟩ := hpasses
      have hlarge : (ofInt? count : Option Float) = none := by
        rw [ofInt?_eq_none_iff, Int.natAbs_natCast] at hnone ⊢
        exact hnone.trans hge
      rw [hlarge] at hsteps
      cases hsteps
  · refine absurd ?_ (hfuel _ (Nat.zero_le _)
      ((lt_stepBound _).trans_le (Nat.le_add_left _ _)))
    rw [ofInt?_eq_none_iff, Int.natAbs_natCast]

/-- An expansion between two doubles ends if the range is refused or some value passes its greatest
one; otherwise a count becomes too large. -/
theorem Between.expand_cases {range : Range Float} (hbetween : Between range least greatest step) :
    (less greatest least = true ∨ ∃ count, Passes least greatest (stepUsed step) count) ∧
        Ends (expand range) ∨
      (less greatest least = false ∧ ¬ ∃ count, Passes least greatest (stepUsed step) count) ∧
        expand range = .error .integerTooLarge := by
  rw [hbetween.expand_eq]
  cases hless : less greatest least with
  | true => exact .inl ⟨.inl rfl, .inr ⟨_, rfl, rfl⟩⟩
  | false =>
      rw [if_neg Bool.false_ne_true]
      rcases Progression.toList_cases least greatest (stepUsed step) (range.kind = "int") with
        ⟨hpasses, items, hitems⟩ | ⟨hstays, herror⟩
      · exact .inl ⟨.inr hpasses, .inl ⟨items, hitems⟩⟩
      · exact .inr ⟨⟨rfl, hstays⟩, herror⟩

theorem not_ends_integerTooLarge :
    ¬ Ends (.error .integerTooLarge : Outcome (List (Scalar Float))) := by
  rintro (⟨items, hitems⟩ | ⟨fault, hfault, hkind⟩)
  · cases hitems
  · cases hfault
    cases hkind

theorem Between.ends_iff {range : Range Float} (hbetween : Between range least greatest step) :
    Ends (expand range) ↔
      less greatest least = true ∨ ∃ count, Passes least greatest (stepUsed step) count := by
  rcases hbetween.expand_cases with ⟨hends, hresult⟩ | ⟨⟨hless, hstays⟩, herror⟩
  · exact iff_of_true hresult hends
  · rw [herror, hless]
    exact iff_of_false not_ends_integerTooLarge (by simpa using hstays)

/-! ## Bounds that are not finite -/

section Unbounded

open Float.Model Float.Model.UnpackedFloat

variable {x y : Float}

/-- An unpacked double that is undefined or the infinity of a sign. -/
def Outermost (sign : Sign) (u : UnpackedFloat) : Prop := u.isNaN = true ∨ u = .infinity sign

theorem outermost_add {sign : Sign} (hx : Outermost sign x.toModel.unpack) :
    Outermost sign (x + y).toModel.unpack := by
  have hsum : Outermost sign (UnpackedFloat.add Format.binary64 x.toModel.unpack
      y.toModel.unpack) := by
    generalize y.toModel.unpack = v
    generalize x.toModel.unpack = u at hx ⊢
    rcases hx with hx | rfl
    · cases u <;> first | exact .inl rfl | cases hx
    · cases v with
      | notANumber => exact .inl rfl
      | zero | finite => exact .inr rfl
      | infinity other =>
          cases sign <;> cases other <;> first | exact .inr rfl | exact .inl rfl
  change Outermost sign (UnpackedFloat.unpack Format.binary64 (UnpackedFloat.pack Format.binary64
    (UnpackedFloat.add Format.binary64 x.toModel.unpack y.toModel.unpack)))
  generalize UnpackedFloat.add Format.binary64 x.toModel.unpack y.toModel.unpack = w at hsum
  rcases hsum with hw | rfl
  · cases w <;> first | exact .inl rfl | cases hw
  · exact .inr (unpack_packedInfinity sign)

/-- Nothing is above the positive infinity, and nothing is below the negative one. -/
theorem less_of_outermost (houter : Outermost .positive x.toModel.unpack ∨
    Outermost .negative y.toModel.unpack) : less x y = false := by
  apply Bool.eq_false_iff.2
  rw [Ne, Double.less_iff]
  generalize x.toModel.unpack = u at houter ⊢
  generalize y.toModel.unpack = v at houter ⊢
  rcases houter with (hu | rfl) | (hv | rfl)
  · rw [compare_undefined (.inl hu)]
    exact nofun
  · cases v with
    | infinity sign => cases sign <;> decide
    | notANumber | zero | finite => simp [UnpackedFloat.compare]
  · rw [compare_undefined (.inr hv)]
    exact nofun
  · cases u with
    | infinity sign => cases sign <;> decide
    | notANumber | zero => simp [UnpackedFloat.compare]
    | finite sign => cases sign <;> simp [UnpackedFloat.compare]

/-- Of two bounds in order that are not both finite, one is undefined or as far out as it can be. -/
theorem outermost_of_compare {u v : UnpackedFloat} (hspecial : Special v ∨ Special u)
    (hcompare : UnpackedFloat.compare u v ≠ some .lt) :
    Outermost .positive u ∨ Outermost .negative v := by
  rcases hspecial with hv | hu
  · cases hv with
    | notANumber => exact .inr (.inl rfl)
    | infinity sign =>
        cases sign with
        | negative => exact .inr (.inr rfl)
        | positive =>
            cases u with
            | notANumber => exact .inl (.inl rfl)
            | infinity other =>
                cases other with
                | positive => exact .inl (.inr rfl)
                | negative => exact absurd rfl hcompare
            | zero | finite => exact absurd (by simp [UnpackedFloat.compare]) hcompare
  · cases hu with
    | notANumber => exact .inl (.inl rfl)
    | infinity sign =>
        cases sign with
        | positive => exact .inl (.inr rfl)
        | negative =>
            cases v with
            | notANumber => exact .inr (.inl rfl)
            | infinity other =>
                cases other with
                | negative => exact .inr (.inr rfl)
                | positive => exact absurd rfl hcompare
            | zero | finite => exact absurd (by simp [UnpackedFloat.compare]) hcompare

/-- A range that is not refused is not passed if one of its bounds is not finite. -/
theorem not_passes_of_unbounded {count : Nat} (hless : less greatest least = false)
    (hunbounded : isFinite least = false ∨ isFinite greatest = false) :
    ¬ Passes least greatest step count := by
  rintro ⟨steps, -, hpast⟩
  rw [← Bool.not_eq_true, Double.less_iff] at hless
  have houter := outermost_of_compare (hunbounded.imp special special) hless
  rw [less_of_outermost (houter.imp outermost_add outermost_add)] at hpast
  cases hpast

end Unbounded

/-! ## Bounds that are passed -/

theorem toRat_tolerance : isFinite (tolerance : Float) = true ∧ 0 ≤ toRat (tolerance : Float) ∧
    toRat (tolerance : Float) ≤ 1 := by
  have hbits : (tolerance : Float).toModel.toBits = 0x3DDB7CDFD9D7BDBB := by
    decide +kernel
  obtain ⟨hfinite, hvalue⟩ :=
    toRat_of_bits .positive 7737125245533627 (-86) (by decide) hbits rfl
  refine ⟨hfinite, ?_⟩
  rw [hvalue]
  norm_num [signed]

/-- The size of the bounds of a range, which counts as one if it is less. -/
def boundSize (least greatest : Float) : ℚ := max (max |toRat least| |toRat greatest|) 1

/-- The numbers of a range are finite and far from the largest double, and its bounds are not too
many steps apart. -/
structure Moderate (least greatest step : Float) : Prop where
  least_finite : isFinite least = true
  greatest_finite : isFinite greatest = true
  step_finite : isFinite step = true
  size_le : boundSize least greatest ≤ 2 ^ 1000
  step_le : toRat step ≤ 2 ^ 1000
  steps_le : 0 < toRat step → boundSize least greatest ≤ 2 ^ 1000 * toRat step

theorem isWhole_of_toRat_eq_zero {x : Float} (hx : isFinite x = true) (hzero : toRat x = 0) :
    isWhole x = true := by
  have hlog : (0 : Int).natAbs.log2 ≤ 1022 := by decide
  obtain ⟨y, hy⟩ := exists_quotient 1 hlog
  have hint : ofInt? 0 = some y := hy
  obtain ⟨hfinite, hfaithful⟩ := faithful_ofInt hint
  have hvalue : toRat y = 0 := by
    exact_mod_cast hfaithful.eq_of_representable (representable_int (n := 0) (by decide))
  rw [isWhole, floor?_eq hx, hzero, Int.floor_zero]
  dsimp only
  rw [hint]
  change same x y = true
  rw [ordered.same_eq, Bool.and_eq_true, atMost_iff_toRat hx hfinite, atMost_iff_toRat hfinite hx,
    hzero, hvalue]
  exact ⟨le_rfl, le_rfl⟩

/-- A step that is taken as it is is positive. -/
theorem toRat_pos_of_intBelow {x : Float} (hx : isFinite x = true)
    (hbelow : Number.intBelow 0 x = true) : 0 < toRat x := by
  rw [Number.intBelow, floor?_eq hx] at hbelow
  dsimp only at hbelow
  rw [Bool.or_eq_true, Bool.and_eq_true, decide_eq_true_eq, beq_iff_eq, Bool.not_eq_true'] at hbelow
  rcases hbelow with hpositive | ⟨hfloor, hpart⟩
  · exact Int.floor_pos.1 hpositive |>.trans_lt' one_pos
  · have hnonnegative : 0 ≤ toRat x := Int.floor_nonneg.1 hfloor.le
    refine lt_of_le_of_ne hnonnegative fun hzero => ?_
    rw [isWhole_of_toRat_eq_zero hx hzero.symm] at hpart
    cases hpart

theorem Moderate.stepUsed {least greatest step : Float} (hmoderate : Moderate least greatest step) :
    isFinite (stepUsed step) = true ∧ 0 < toRat (stepUsed step) ∧
      toRat (stepUsed step) ≤ 2 ^ 1000 ∧
      boundSize least greatest ≤ 2 ^ 1000 * toRat (stepUsed step) := by
  unfold Search.stepUsed
  cases hbelow : Number.intBelow 0 step with
  | true =>
      have hpositive := toRat_pos_of_intBelow hmoderate.step_finite hbelow
      exact ⟨hmoderate.step_finite, hpositive, hmoderate.step_le, hmoderate.steps_le hpositive⟩
  | false =>
      rw [if_neg Bool.false_ne_true, toRat_one.2, mul_one]
      exact ⟨toRat_one.1, one_pos, one_le_pow₀ one_le_two, hmoderate.size_le⟩

/-- Doubling a step leads beyond eight times a size, and not much farther. -/
theorem exists_doubling {size step bound : ℚ} (hsize : 1 ≤ size) (hstep : 0 < step)
    (hbound : size ≤ bound) (hle : step ≤ bound) (hsteps : size ≤ bound * step) :
    ∃ k : ℕ, 8 * size ≤ 2 ^ k * step ∧ 2 ^ k * step ≤ 16 * bound ∧ (2 : ℚ) ^ k ≤ 16 * bound := by
  rcases le_or_gt (8 * size) step with hlarge | hsmall
  · refine ⟨0, ?_, ?_, ?_⟩ <;> rw [pow_zero] <;> linarith
  · have hratio : 1 ≤ 8 * size / step := (one_le_div hstep).2 hsmall.le
    obtain ⟨k, hlow, hhigh⟩ := exists_nat_pow_near hratio (one_lt_two (α := ℚ))
    rw [le_div_iff₀ hstep] at hlow
    rw [div_lt_iff₀ hstep] at hhigh
    refine ⟨k + 1, hhigh.le, ?_, ?_⟩
    · rw [pow_succ]
      linarith
    · have hcount : (2 : ℚ) ^ k ≤ 8 * bound := by
        refine le_of_mul_le_mul_right ?_ hstep
        linarith
      rw [pow_succ]
      linarith

/-- Some value of a moderate range is beyond its greatest one. -/
theorem Moderate.exists_passes {least greatest step : Float}
    (hmoderate : Moderate least greatest step) :
    ∃ count, Passes least greatest (Search.stepUsed step) count := by
  obtain ⟨hfinite, hpositive, hle, hsteps⟩ := hmoderate.stepUsed
  have hsizeBound := hmoderate.size_le
  generalize Search.stepUsed step = used at *
  have hleast := hmoderate.least_finite
  have hgreatest := hmoderate.greatest_finite
  have hone : 1 ≤ boundSize least greatest := le_max_right _ _
  have hrepresentable : Representable (boundSize least greatest) :=
    ((representable_toRat hleast).abs.max (representable_toRat hgreatest).abs).max
      (representable_two_pow 0)
  have hlower : -boundSize least greatest ≤ toRat least ∧ toRat least ≤ boundSize least greatest :=
    abs_le.1 ((le_max_left _ _).trans (le_max_left _ _))
  have hupper : -boundSize least greatest ≤ toRat greatest ∧
      toRat greatest ≤ boundSize least greatest :=
    abs_le.1 ((le_max_right _ _).trans (le_max_left _ _))
  generalize boundSize least greatest = size at *
  obtain ⟨k, hbeyond, hproduct, hcount⟩ := exists_doubling hone hpositive hsizeBound hle hsteps
  have hsmall : k ≤ 1004 := by
    rw [show (16 : ℚ) * 2 ^ 1000 = 2 ^ 1004 by rw [pow_add 2 4 1000]; norm_num] at hcount
    exact (pow_le_pow_iff_right₀ one_lt_two).1 hcount
  have hroom : 100 * (2 : ℚ) ^ 1000 ≤ 2 ^ 1023 := by
    rw [pow_add 2 23 1000]
    exact mul_le_mul_of_nonneg_right (by norm_num) (by positivity)
  generalize (2 : ℚ) ^ 1000 = bound at *
  -- The count of steps is a power of two, so that it and its product with the step are exact.
  obtain ⟨steps, hint, hfiniteSteps, hvalue⟩ := exists_ofInt_two_pow (hsmall.trans (by decide))
  have hlarge : (2 : ℚ) ^ (-968 : ℤ) ≤ |toRat steps * toRat used| := by
    rw [hvalue]
    calc (2 : ℚ) ^ (-968 : ℤ) ≤ 2 ^ (0 : ℤ) := zpow_le_zpow_right₀ one_le_two (by decide)
      _ ≤ 2 ^ k * toRat used := by rw [zpow_zero]; linarith
      _ ≤ |2 ^ k * toRat used| := le_abs_self _
  obtain ⟨hfiniteProduct, hexact⟩ := toRat_mul hfiniteSteps hfinite
    (hvalue ▸ (representable_toRat hfinite).mul_two_pow k) hlarge (by
      rw [hvalue, abs_of_pos (by linarith)]
      exact le_trans (by linarith) hroom)
  rw [hvalue] at hexact
  have hfiniteSum : isFinite (least + steps * used) = true := by
    refine isFinite_add hleast hfiniteProduct (le_trans ?_ hroom)
    rw [hexact, abs_of_pos (by linarith)]
    linarith
  have hvalueAbove : 2 ^ 2 * size ≤ toRat (least + steps * used) := by
    refine (faithful_add hleast hfiniteProduct hfiniteSum).lower _ (hrepresentable.mul_two_pow 2) ?_
    rw [hexact]
    linarith
  obtain ⟨hfiniteTolerance, hnonnegative, htiny⟩ := toRat_tolerance
  have hfiniteLimit : isFinite (greatest + tolerance) = true := by
    refine isFinite_add hgreatest hfiniteTolerance (le_trans (abs_le.2 ⟨?_, ?_⟩) hroom) <;> linarith
  have hlimit : toRat (greatest + tolerance) ≤ 2 * size :=
    (faithful_add hgreatest hfiniteTolerance hfiniteLimit).upper _ hrepresentable.double
      (by linarith)
  refine ⟨2 ^ k, steps, hint, (less_iff_toRat hfiniteLimit hfiniteSum).2 ?_⟩
  linarith

/-! ## Ranges on the command line -/

theorem between_of_rangeOf {α : Type} [Arith α] {text : String} {range : Range α}
    (hrange : Command.rangeOf text = .ok range) :
    ∃ least greatest step, Between range least greatest step := by
  unfold Command.rangeOf at hrange
  dsimp only at hrange
  split at hrange
  · cases hrange
  · split at hrange
    · cases hrange
    · split at hrange
      · cases hrange
        exact ⟨_, _, _, rfl, rfl, rfl⟩
      · cases hrange

/-- The range that a text on the command line gives is expanded to a list or refused, if and only if
its bounds are the wrong way round or some value passes the greatest one.  The latter is so for
moderate numbers, and it is never so if a bound is not finite.  Otherwise the count of steps becomes
too large for a double. -/
theorem expansion_ends {text : String} {range : Range Float}
    (hrange : Command.rangeOf text = .ok range) :
    ∃ least greatest step, Between range least greatest step ∧
      (Ends (expand range) ↔ less greatest least = true ∨
        ∃ count, Passes least greatest (stepUsed step) count) ∧
      (Moderate least greatest step → Ends (expand range)) ∧
      (isFinite least = false ∨ isFinite greatest = false →
        (Ends (expand range) ↔ less greatest least = true)) ∧
      (Ends (expand range) ∨ expand range = .error .integerTooLarge) := by
  obtain ⟨least, greatest, step, hbetween⟩ := between_of_rangeOf hrange
  have hends := hbetween.ends_iff
  refine ⟨least, greatest, step, hbetween, hends, ?_, ?_, ?_⟩
  · intro hmoderate
    exact hends.2 (.inr hmoderate.exists_passes)
  · intro hunbounded
    refine hends.trans ⟨fun hresult => hresult.elim id ?_, .inl⟩
    rintro ⟨count, hpasses⟩
    by_contra hless
    exact not_passes_of_unbounded (Bool.not_eq_true _ ▸ hless) hunbounded hpasses
  · exact hbetween.expand_cases.imp And.right And.right

/-- The bits of the numbers of a range, if they are numbers. -/
def rangeBits (range : Range Float) : List UInt64 :=
  [range.least, range.greatest, range.step].filterMap fun
    | .real x => some x.toModel.toBits
    | _ => none

theorem Between.rangeBits_eq {range : Range Float} (hbetween : Between range least greatest step) :
    rangeBits range = [least.toModel.toBits, greatest.toModel.toBits, step.toModel.toBits] := by
  rw [rangeBits, hbetween.least_eq, hbetween.greatest_eq, hbetween.step_eq]
  rfl

theorem expansion_ends_fiveToTwenty : ∃ (range : Range Float) (least greatest step : Float),
    Command.rangeOf "x=5:20" = .ok range ∧ Between range least greatest step ∧
      Moderate least greatest step ∧ Ends (expand range) := by
  have hbits : (Command.rangeOf "x=5:20" : Outcome (Range Float)).toOption.map rangeBits =
      some [0x4014000000000000, 0x4034000000000000, 0x3FF0000000000000] := by
    decide +kernel
  cases hrange : (Command.rangeOf "x=5:20" : Outcome (Range Float)) with
  | error fault =>
      rw [hrange] at hbits
      cases hbits
  | ok range =>
      obtain ⟨least, greatest, step, hbetween, -, hends, -⟩ := expansion_ends hrange
      rw [hrange] at hbits
      have hnumbers := hbetween.rangeBits_eq.symm.trans (Option.some.inj hbits)
      simp only [List.cons.injEq, and_true] at hnumbers
      obtain ⟨hleast, hgreatest, hstep⟩ := hnumbers
      have hfirst := toRat_of_bits .positive 5629499534213120 (-50) (by decide) hleast rfl
      have hlast := toRat_of_bits .positive 5629499534213120 (-48) (by decide) hgreatest rfl
      have hgap := toRat_of_bits .positive 4503599627370496 (-52) (by decide) hstep rfl
      have hsize : boundSize least greatest = 20 := by
        rw [boundSize, hfirst.2, hlast.2]
        norm_num [signed]
      have hgapValue : toRat step = 1 := by
        rw [hgap.2]
        norm_num [signed]
      have hlarge : (20 : ℚ) ≤ 2 ^ 1000 :=
        le_trans (by norm_num : (20 : ℚ) ≤ 2 ^ 5) (pow_le_pow_right₀ one_le_two (by decide))
      have hmoderate : Moderate least greatest step :=
        { least_finite := hfirst.1
          greatest_finite := hlast.1
          step_finite := hgap.1
          size_le := hsize ▸ hlarge
          step_le := hgapValue ▸ one_le_pow₀ one_le_two
          steps_le := fun _ => by rw [hsize, hgapValue, mul_one]; exact hlarge }
      exact ⟨range, least, greatest, step, rfl, hbetween, hmoderate, hends hmoderate⟩

/-- A bound that is not a number is accepted, and no value passes the greatest one. -/
theorem undefined_bound_never_passes : ∃ range : Range Float,
    Command.rangeOf "x=nan:5" = .ok range ∧ ¬ Ends (expand range) := by
  have hbits : (Command.rangeOf "x=nan:5" : Outcome (Range Float)).toOption.map rangeBits =
      some [0x7FF8000000000000, 0x4014000000000000, 0x3FF0000000000000] := by
    decide +kernel
  cases hrange : (Command.rangeOf "x=nan:5" : Outcome (Range Float)) with
  | error fault =>
      rw [hrange] at hbits
      cases hbits
  | ok range =>
      obtain ⟨least, greatest, step, hbetween⟩ := between_of_rangeOf hrange
      rw [hrange] at hbits
      have hnumbers := hbetween.rangeBits_eq.symm.trans (Option.some.inj hbits)
      have hleast : least.toModel.toBits = 0x7FF8000000000000 := (List.cons.inj hnumbers).1
      have hundefined : least.toModel.unpack.isNaN = true := by
        rw [Float.Model.unpack, hleast]
        rfl
      have hunbounded : isFinite least = false := by
        change least.toModel.unpack.isFinite = false
        rw [Float.Model.unpack, hleast]
        rfl
      have hless : less greatest least = false := less_of_outermost (.inr (.inl hundefined))
      refine ⟨range, rfl, fun hends => ?_⟩
      rcases hbetween.ends_iff.1 hends with hrefused | ⟨count, hpasses⟩
      · rw [hless] at hrefused
        cases hrefused
      · exact not_passes_of_unbounded hless (.inl hunbounded) hpasses

end Search

end Backtest
