import Backtest.Proofs.Search.Refusal
import Backtest.Proofs.Search.Termination

/-!
# Derived ranges

The range to search for a numeric parameter takes the bounds that the parameter declares, and
derives those that are missing from its default: from three tenths of it, but at least from one, to
three times the default, each rounded to the nearest integer.  So a derived range holds its default
if that is at least one (`least_atMost_iff`, `atMost_greatest_iff`); below one the range starts after
its default and may even end before it starts.  `derived_ranges_surround` says which ranges of a
script lie around their defaults, and that a search over these is not refused.
-/

namespace Backtest.Search

open Arith Double

/-! ## The two sums -/

/-- What is rounded down to a derived least value. -/
def tenths (default : Float) : Float := default * ofDecimal false 3 (-1) + ofDecimal false 5 (-1)

/-- What is rounded down to a derived greatest value. -/
def triple (default : Float) : Float := default * ofNat 3 + ofDecimal false 5 (-1)

theorem toRat_tenth : isFinite (ofDecimal false 3 (-1) : Float) = true ∧
    1 / 4 ≤ toRat (ofDecimal false 3 (-1) : Float) ∧
    toRat (ofDecimal false 3 (-1) : Float) ≤ 1 / 2 := by
  have hbits : (ofDecimal false 3 (-1) : Float).toModel.toBits = 0x3FD3333333333333 := by
    decide +kernel
  obtain ⟨hfinite, hvalue⟩ :=
    toRat_of_bits .positive 5404319552844595 (-54) (by decide) hbits rfl
  refine ⟨hfinite, ?_⟩
  rw [hvalue]
  norm_num [signed]

theorem toRat_three : isFinite (ofNat 3 : Float) = true ∧ toRat (ofNat 3 : Float) = 3 := by
  have hbits : (ofNat 3 : Float).toModel.toBits = 0x4008000000000000 := by
    decide +kernel
  obtain ⟨hfinite, hvalue⟩ :=
    toRat_of_bits .positive 6755399441055744 (-51) (by decide) hbits rfl
  refine ⟨hfinite, hvalue.trans ?_⟩
  norm_num [signed]

variable {default : Float}

theorem tiny_le {q : ℚ} (hq : 1 / 4 ≤ q) : (2 : ℚ) ^ (-968 : ℤ) ≤ q := by
  refine le_trans ?_ hq
  calc (2 : ℚ) ^ (-968 : ℤ) ≤ 2 ^ (-2 : ℤ) := zpow_le_zpow_right₀ one_le_two (by decide)
    _ = 1 / 4 := by norm_num

/-- Three tenths of a default of at least one, and one half, are at most the default. -/
theorem toRat_tenths_le (hfinite : isFinite (tenths default) = true) (hone : 1 ≤ toRat default) :
    toRat (tenths default) ≤ toRat default := by
  obtain ⟨hproduct, hhalf⟩ := finite_of_add hfinite
  obtain ⟨hdefault, htenth⟩ := finite_of_mul hproduct
  obtain ⟨-, hlow, hhigh⟩ := toRat_tenth
  have hrepresentable := representable_toRat hdefault
  have hbound : 1 / 4 ≤ toRat default * toRat (ofDecimal false 3 (-1)) := by nlinarith
  have hlarge := tiny_le (hbound.trans (le_abs_self _))
  have hpart : toRat (default * ofDecimal false 3 (-1)) ≤ toRat default / 2 :=
    (faithful_mul hdefault htenth hlarge hproduct).upper _
      (hrepresentable.half (hone.trans (le_abs_self _))) (by nlinarith)
  refine (faithful_add hproduct hhalf hfinite).upper _ hrepresentable ?_
  rw [toRat_half.2]
  linarith

/-- Three times a default of at least one, and one half, are at least twice the default. -/
theorem le_toRat_triple (hfinite : isFinite (triple default) = true) (hone : 1 ≤ toRat default) :
    2 * toRat default ≤ toRat (triple default) := by
  obtain ⟨hproduct, hhalf⟩ := finite_of_add hfinite
  obtain ⟨hdefault, hthree⟩ := finite_of_mul hproduct
  have hrepresentable := (representable_toRat hdefault).double
  have hfaithful := faithful_mul hdefault hthree
  rw [toRat_three.2] at hfaithful
  have hbound : 1 / 4 ≤ toRat default * 3 := by linarith
  have hpart : 2 * toRat default ≤ toRat (default * ofNat 3) :=
    (hfaithful (tiny_le (hbound.trans (le_abs_self _))) hproduct).lower _ hrepresentable
      (by linarith)
  refine (faithful_add hproduct hhalf hfinite).lower _ hrepresentable ?_
  rw [toRat_half.2]
  linarith

/-- Three times a default of at most minus one, and one half, are below the default.  A power of two
lies between. -/
theorem toRat_triple_lt (hfinite : isFinite (triple default) = true) (hone : toRat default ≤ -1) :
    ∃ z, Representable z ∧ toRat (triple default) ≤ z ∧ z < toRat default := by
  obtain ⟨hproduct, hhalf⟩ := finite_of_add hfinite
  obtain ⟨hdefault, hthree⟩ := finite_of_mul hproduct
  obtain ⟨k, hlow, hhigh⟩ := exists_nat_pow_near (le_neg.1 hone) (one_lt_two (α := ℚ))
  have hunit : (1 : ℚ) ≤ 2 ^ k := one_le_pow₀ one_le_two
  have hthrice : Representable (2 ^ k * (-3 : ℤ)) := (representable_int (by decide)).mul_two_pow k
  have hfaithful := faithful_mul hdefault hthree
  rw [toRat_three.2] at hfaithful
  have hbound : 1 / 4 ≤ |toRat default * 3| := by
    rw [abs_of_neg (by linarith)]
    linarith
  have hpart : toRat (default * ofNat 3) ≤ 2 ^ k * (-3 : ℤ) :=
    (hfaithful (tiny_le hbound) hproduct).upper _ hthrice (by push_cast; linarith)
  refine ⟨-2 ^ (k + 1), (representable_two_pow (k + 1)).neg, ?_, by linarith⟩
  refine (faithful_add hproduct hhalf hfinite).upper _ (representable_two_pow (k + 1)).neg ?_
  rw [toRat_half.2, pow_succ]
  push_cast at hpart
  linarith

/-! ## The two bounds -/

section Bounds

variable {x : Float} {n : Int}

theorem floor_of_roundHalfUp {y : Float} (hround : roundHalfUp y = .ok n) :
    isFinite (y + ofDecimal false 5 (-1)) = true ∧ n = ⌊toRat (y + ofDecimal false 5 (-1))⌋ := by
  unfold roundHalfUp Number.floorOf at hround
  split at hround
  · next floor hfloor =>
      have hfinite := finite_of_floor? hfloor
      rw [floor?_eq hfinite] at hfloor
      exact ⟨hfinite, (Except.ok.inj hround).symm.trans (Option.some.inj hfloor).symm⟩
  · cases hround

/-- A derived least value is at most the default if and only if the default is at least one. -/
theorem least_atMost_iff (hround : roundHalfUp (default * ofDecimal false 3 (-1)) = .ok n)
    (hint : ofInt? (max 1 n) = some x) :
    atMost x default = true ↔ atMost one default = true := by
  obtain ⟨hsum, rfl⟩ := floor_of_roundHalfUp hround
  obtain ⟨hx, hfaithful⟩ := faithful_ofInt hint
  have hdefault := (finite_of_mul (finite_of_add hsum).1).1
  rw [atMost_iff_toRat hx hdefault, atMost_iff_toRat toRat_one.1 hdefault, toRat_one.2]
  constructor
  · intro hle
    refine le_trans (hfaithful.lower 1 ?_ ?_) hle
    · exact_mod_cast representable_int (n := 1) (by decide)
    · exact_mod_cast le_max_left (1 : ℤ) _
  · intro hone
    refine hfaithful.upper _ (representable_toRat hdefault) ?_
    rw [Int.cast_max, Int.cast_one]
    exact max_le hone ((Int.floor_le _).trans (toRat_tenths_le hsum hone))

/-- A derived greatest value reaches a default if the sum that is rounded down is at least one, or
if it is not negative and the default not positive. -/
def ReachesUp (default : Float) : Prop :=
  atMost one (triple default) = true ∨
    atMost zero (triple default) = true ∧ atMost default zero = true

instance (default : Float) : Decidable (ReachesUp default) :=
  inferInstanceAs (Decidable (_ ∨ _ ∧ _))

theorem atMost_greatest_iff (hround : roundHalfUp (default * ofNat 3) = .ok n)
    (hint : ofInt? n = some x) : atMost default x = true ↔ ReachesUp default := by
  obtain ⟨hsum, hfloor⟩ := floor_of_roundHalfUp hround
  change isFinite (triple default) = true at hsum
  change n = ⌊toRat (triple default)⌋ at hfloor
  subst hfloor
  obtain ⟨hx, hfaithful⟩ := faithful_ofInt hint
  have hdefault := (finite_of_mul (finite_of_add hsum).1).1
  have hrepresentable := representable_toRat hdefault
  rw [ReachesUp, atMost_iff_toRat hdefault hx, atMost_iff_toRat toRat_one.1 hsum,
    atMost_iff_toRat toRat_zero.1 hsum, atMost_iff_toRat hdefault toRat_zero.1, toRat_one.2,
    toRat_zero.2]
  have hfloor := Int.floor_le (toRat (triple default))
  have hnext := Int.lt_floor_add_one (toRat (triple default))
  rcases lt_or_ge (toRat (triple default)) 0 with hnegative | hnonnegative
  · -- The greatest value is at most minus one, and below a default that is at most minus one.
    refine iff_of_false (not_le.2 ?_) (by push Not; exact ⟨by linarith, fun h => by linarith⟩)
    rcases lt_or_ge (-1) (toRat default) with hlarge | hsmall
    · refine lt_of_le_of_lt (hfaithful.upper (-1 : ℤ) (representable_int (by decide)) ?_)
        (by exact_mod_cast hlarge)
      have hbelow : ⌊toRat (triple default)⌋ < 0 := Int.floor_lt.2 (by exact_mod_cast hnegative)
      exact_mod_cast Int.le_sub_one_of_lt hbelow
    · obtain ⟨z, hz, hle, hlt⟩ := toRat_triple_lt hsum hsmall
      exact (hfaithful.upper z hz (hfloor.trans hle)).trans_lt hlt
  · rcases lt_or_ge (toRat (triple default)) 1 with hsmall | hlarge
    · -- The greatest value is zero.
      have hzero : ⌊toRat (triple default)⌋ = 0 := Int.floor_eq_zero_iff.2 ⟨hnonnegative, hsmall⟩
      rw [hzero] at hfaithful
      have hvalue := hfaithful.eq_of_representable (representable_int (by decide))
      rw [hvalue, Int.cast_zero]
      constructor
      · exact fun hdefault => .inr ⟨hnonnegative, hdefault⟩
      · rintro (hlarge | ⟨-, hdefault⟩)
        · exact absurd hlarge (not_le.2 hsmall)
        · exact hdefault
    · refine iff_of_true ?_ (.inl hlarge)
      rcases lt_or_ge (toRat default) 1 with hbelow | hone
      · have hfirst : (1 : ℤ) ≤ ⌊toRat (triple default)⌋ :=
          Int.le_floor.2 (by exact_mod_cast hlarge)
        refine hbelow.le.trans (hfaithful.lower 1 ?_ (by exact_mod_cast hfirst))
        exact_mod_cast representable_int (n := 1) (by decide)
      · have htwice := le_toRat_triple hsum hone
        exact hfaithful.lower _ hrepresentable (by linarith)

end Bounds

/-! ## The range of a parameter -/

section Param

variable {param : Input.Param Float} {range : Range Float}

/-- The bounds that a parameter declares lie around its default. -/
def DeclaredAround (param : Input.Param Float) : Prop :=
  ∀ default, param.default.toReal = .ok default →
    (∀ x ∈ param.least, atMost x default = true) ∧ ∀ y ∈ param.greatest, atMost default y = true

instance (param : Input.Param Float) : Decidable (DeclaredAround param) :=
  inferInstanceAs (Decidable (∀ default, _ = _ →
    (∀ x ∈ _, atMost x default = true) ∧ ∀ y ∈ _, atMost default y = true))

/-- The bounds that a parameter does not declare are derived around its default. -/
def DerivedAround (param : Input.Param Float) : Prop :=
  ∀ default, param.default.toReal = .ok default →
    (param.least.isSome = true ∨ atMost one default = true) ∧
      (param.greatest.isSome = true ∨ ReachesUp default)

instance (param : Input.Param Float) : Decidable (DerivedAround param) :=
  inferInstanceAs (Decidable (∀ default, _ = _ → (_ ∨ _) ∧ (_ ∨ ReachesUp default)))

theorem realOfInt_eq_ok {n : Int} {value : Scalar Float} (hvalue : realOfInt n = .ok value) :
    ∃ x, ofInt? n = some x ∧ value = .real x := by
  unfold realOfInt Scalar.ofInt at hvalue
  cases hint : (ofInt? n : Option Float) with
  | none =>
      rw [hint] at hvalue
      cases hvalue
  | some x =>
      rw [hint] at hvalue
      cases hvalue
      exact ⟨x, rfl, rfl⟩

/-- The least value of the range of a parameter with a default. -/
def leastOf (param : Input.Param Float) (default : Float) : Outcome (Scalar Float) :=
  match param.least with
  | some x => .ok (.real x)
  | none => roundHalfUp (default * ofDecimal false 3 (-1)) >>= fun n => realOfInt (max 1 n)

/-- The greatest value of the range of a parameter with a default. -/
def greatestOf (param : Input.Param Float) (default : Float) : Outcome (Scalar Float) :=
  match param.greatest with
  | some y => .ok (.real y)
  | none => roundHalfUp (default * ofNat 3) >>= fun n => realOfInt n

theorem ofParam_eq_ok (hrange : ofParam param = .ok range) :
    ∃ default least greatest, param.default.toReal = .ok default ∧
      leastOf param default = .ok least ∧ greatestOf param default = .ok greatest ∧
      ∃ step, range = ⟨param.name, least, greatest, .real step, param.kind.name, param.title, true⟩
      := by
  obtain ⟨default, hdefault, hrange⟩ := Outcome.bind_eq_ok.1 hrange
  have hparts : (leastOf param default >>= fun least =>
      greatestOf param default >>= fun greatest =>
        .ok ⟨param.name, least, greatest, .real (param.step.getD
          (if param.kind = .float then ofDecimal false 5 (-1) else one)), param.kind.name,
          param.title, true⟩) = Except.ok range := by
    rw [← hrange, leastOf, greatestOf]
    cases param.least <;> cases param.greatest <;> simp only [bind_assoc] <;> rfl
  obtain ⟨least, hleast, hparts⟩ := Outcome.bind_eq_ok.1 hparts
  obtain ⟨greatest, hgreatest, hparts⟩ := Outcome.bind_eq_ok.1 hparts
  exact ⟨default, least, greatest, hdefault, hleast, hgreatest, _, (Except.ok.inj hparts).symm⟩

theorem leastOf_side {value : Scalar Float} (hvalue : leastOf param default = .ok value)
    (hdeclared : ∀ x, param.least = some x → atMost x default = true) :
    ∃ least, value = .real least ∧
      (atMost least default = true ↔ param.least.isSome = true ∨ atMost one default = true) := by
  rw [leastOf] at hvalue
  cases hleast : param.least with
  | some x =>
      rw [hleast] at hvalue
      exact ⟨x, (Except.ok.inj hvalue).symm, iff_of_true (hdeclared x hleast) (.inl rfl)⟩
  | none =>
      rw [hleast] at hvalue
      obtain ⟨n, hn, hreal⟩ := Outcome.bind_eq_ok.1 hvalue
      obtain ⟨x, hint, rfl⟩ := realOfInt_eq_ok hreal
      exact ⟨x, rfl, (least_atMost_iff hn hint).trans (by simp)⟩

theorem greatestOf_side {value : Scalar Float} (hvalue : greatestOf param default = .ok value)
    (hdeclared : ∀ y, param.greatest = some y → atMost default y = true) :
    ∃ greatest, value = .real greatest ∧
      (atMost default greatest = true ↔ param.greatest.isSome = true ∨ ReachesUp default) := by
  rw [greatestOf] at hvalue
  cases hgreatest : param.greatest with
  | some y =>
      rw [hgreatest] at hvalue
      exact ⟨y, (Except.ok.inj hvalue).symm, iff_of_true (hdeclared y hgreatest) (.inl rfl)⟩
  | none =>
      rw [hgreatest] at hvalue
      obtain ⟨n, hn, hreal⟩ := Outcome.bind_eq_ok.1 hvalue
      obtain ⟨y, hint, rfl⟩ := realOfInt_eq_ok hreal
      exact ⟨y, rfl, (atMost_greatest_iff hn hint).trans (by simp)⟩

/-- The range of a parameter lies around its default as far as its bounds do. -/
structure Sides (param : Input.Param Float) (range : Range Float)
    (default least greatest step : Float) : Prop where
  default_eq : param.default.toReal = .ok default
  between : Between range least greatest step
  least_iff : atMost least default = true ↔ param.least.isSome = true ∨ atMost one default = true
  greatest_iff : atMost default greatest = true ↔
    param.greatest.isSome = true ∨ ReachesUp default

theorem exists_sides (hrange : ofParam param = .ok range) (hdeclared : DeclaredAround param) :
    ∃ default least greatest step, Sides param range default least greatest step := by
  obtain ⟨default, first, last, hdefault, hfirst, hlast, step, rfl⟩ := ofParam_eq_ok hrange
  obtain ⟨hlow, hhigh⟩ := hdeclared default hdefault
  obtain ⟨least, rfl, hleast⟩ := leastOf_side hfirst hlow
  obtain ⟨greatest, rfl, hgreatest⟩ := greatestOf_side hlast hhigh
  exact ⟨default, least, greatest, step, hdefault, ⟨rfl, rfl, rfl⟩, hleast, hgreatest⟩

end Param

/-! ## Searching derived ranges -/

/-- A fault other than the refusal of an inverted range. -/
def NotInverted (fault : Fault) : Prop :=
  ∀ name least greatest, fault ≠ .invertedRange name least greatest

/-- A range with a number between its bounds is not refused. -/
theorem expand_not_inverted {range : Range Float} {least greatest step : Float}
    (hbetween : Between range least greatest step) (hleast : atMost least default = true)
    (hgreatest : atMost default greatest = true) :
    Outcome.FailsBy NotInverted (expand range) := by
  have hordered := ordered.atMost_trans least default greatest hleast hgreatest
  have hless : less greatest least = false := by
    rw [ordered.less_eq, hordered, Bool.not_true, Bool.and_false]
  rw [hbetween.expand_eq, hless, if_neg Bool.false_ne_true]
  rcases Progression.toList_cases least greatest (stepUsed step) (range.kind = "int") with
    ⟨-, items, hitems⟩ | ⟨-, herror⟩
  · rw [hitems]
    exact Outcome.failsBy_ok _ _
  · rw [herror]
    exact Outcome.failsBy_error nofun

theorem ofValidBars_not_inverted (bars : List (Bar Float)) :
    Outcome.FailsBy NotInverted (Prices.ofValidBars bars) := by
  refine Outcome.failsBy_bind ?_ fun prices _ => ?_
  · rw [Prices.ofBars]
    split
    · exact Outcome.failsBy_ok _ _
    · exact Outcome.failsBy_error nofun
  · rw [Prices.validate]
    split
    · exact Outcome.failsBy_error nofun
    · split
      · exact Outcome.failsBy_error nofun
      · split
        · exact Outcome.failsBy_error nofun
        · exact Outcome.failsBy_ok _ _

theorem targetOf_not_inverted (settings : Settings Float) :
    Outcome.FailsBy NotInverted (targetOf settings) := by
  rw [targetOf]
  split
  · exact Outcome.failsBy_ok _ _
  · refine Outcome.failsBy_bind ?_ fun _ _ => Outcome.failsBy_ok _ _
    rw [StrategyKind.ofName]
    split
    · exact Outcome.failsBy_ok _ _
    · exact Outcome.failsBy_error nofun

/-- A search is refused for an inverted range only if one of its ranges is. -/
theorem planOf_not_inverted {bars : List (Bar Float)} {settings : Settings Float}
    (hranges : ∀ range ∈ settings.ranges, Outcome.FailsBy NotInverted (expand range)) :
    Outcome.FailsBy NotInverted (planOf bars settings) := by
  have haxes : Outcome.FailsBy NotInverted (axesOf settings.ranges) := by
    refine Outcome.failsBy_mapM fun range hrange => ?_
    exact Outcome.failsBy_bind (hranges range (List.mem_of_mem_filter hrange)) fun _ _ =>
      Outcome.failsBy_ok _ _
  unfold planOf
  split
  · exact Outcome.failsBy_error nofun
  · refine Outcome.failsBy_bind (ofValidBars_not_inverted bars) fun _ _ => ?_
    refine Outcome.failsBy_bind haxes fun _ _ => ?_
    exact Outcome.failsBy_bind (targetOf_not_inverted settings) fun _ _ => Outcome.failsBy_ok _ _

theorem notInverted_of_ofRun {fault : Fault} (hrun : fault.OfRun) : NotInverted fault := by
  rintro name least greatest rfl
  exact hrun

/-- The parameters of a script that are searched. -/
def numericParams (code : Text.Chars) : List (Input.Param Float) :=
  (Input.params code).filter fun param => param.kind.isNumeric

/-- No search over some ranges ends in the fault of an inverted range. -/
def NeverInverted (ranges : List (Range Float)) : Prop :=
  ∀ (κ σ : Type) (now : StateM κ Float) (draw : RandomSource σ) (seed : σ)
    (bars : List (Bar Float)) (settings : Settings Float) (clock : κ),
    (∀ range ∈ settings.ranges, range ∈ ranges) →
    Outcome.FailsBy NotInverted ((optimize now draw seed bars settings).run clock).1.outcome

/-- Ranges with a number between their bounds can be searched. -/
theorem neverInverted_of_expand {ranges : List (Range Float)}
    (hranges : ∀ range ∈ ranges, Outcome.FailsBy NotInverted (expand range)) :
    NeverInverted ranges := by
  intro κ σ now draw seed bars settings clock hsettings
  refine (optimize_failsBy now draw seed bars settings clock).mono fun fault hfault => ?_
  rcases hfault with hrun | hplan
  · exact notInverted_of_ofRun hrun
  · exact planOf_not_inverted (fun range hrange => hranges range (hsettings range hrange)) _ hplan

/-- The derived ranges of a script whose declared bounds lie around the defaults: each range starts
at or below its default exactly if the least value is declared or the default is at least one, and
ends at or above it exactly if the greatest value is declared or three times the default reaches it.
Where both hold, no search over the ranges ends because one of them is inverted. -/
theorem derived_ranges_surround {code : Text.Chars} {ranges : List (Range Float)}
    (hranges : ofParams (Input.params code) = .ok ranges)
    (hdeclared : ∀ param ∈ numericParams code, DeclaredAround param) :
    List.Forall₂
        (fun param range => ∃ default least greatest step,
          Sides param range default least greatest step) (numericParams code) ranges ∧
      ((∀ param ∈ numericParams code, DerivedAround param) → NeverInverted ranges) := by
  have hsides := ((List.forall₂_and_left _ _).2 ⟨hdeclared, Outcome.mapM_eq_ok_iff.1 hranges⟩).imp
    fun param range hboth => exists_sides hboth.2 hboth.1
  refine ⟨hsides, fun hderived => neverInverted_of_expand fun range hrange => ?_⟩
  obtain ⟨place, rfl⟩ := List.get_of_mem hrange
  have hplace := Nat.lt_of_lt_of_eq place.isLt hsides.length_eq.symm
  obtain ⟨default, least, greatest, step, hsided⟩ := hsides.get hplace place.isLt
  obtain ⟨hlow, hhigh⟩ := hderived _ (List.get_mem _ ⟨place, hplace⟩) default hsided.default_eq
  exact expand_not_inverted hsided.between (hsided.least_iff.2 hlow) (hsided.greatest_iff.2 hhigh)

/-- Two periods, one of which declares its least value. -/
def periodScript : Text.Chars := "fast = input.int(9, minval=2)\nslow = input.int(21)".toList

theorem derived_ranges_surround_periods :
    (∀ param ∈ numericParams periodScript, DeclaredAround param ∧ DerivedAround param) ∧
      ∃ ranges, ofParams (Input.params periodScript) = .ok ranges ∧
        List.Forall₂
          (fun param range => ∃ default least greatest step,
            Sides param range default least greatest step) (numericParams periodScript) ranges ∧
        NeverInverted ranges := by
  have haround : ∀ param ∈ numericParams periodScript,
      DeclaredAround param ∧ DerivedAround param := by decide +kernel
  have hsome : (ofParams (Input.params periodScript) :
      Outcome (List (Range Float))).toOption.isSome = true := by decide +kernel
  obtain ⟨ranges, hranges⟩ := Option.isSome_iff_exists.1 hsome
  have hok := Outcome.toOption_eq_some.1 hranges
  obtain ⟨hsides, hsearch⟩ := derived_ranges_surround hok fun param hparam =>
    (haround param hparam).1
  exact ⟨haround, ranges, hok, hsides, hsearch fun param hparam => (haround param hparam).2⟩

/-- A parameter that declares nothing but a default of zero. -/
def zeroScript : Text.Chars := "x = input.int(0)".toList

/-- A bar on which nothing moves. -/
def flatBar : Bar Float := ⟨0, one, one, one, one, one⟩

/-- A search for the best fast average over some ranges. -/
def searchOf (ranges : List (Range Float)) : Settings Float :=
  ⟨StrategyKind.dualAverage.name, none, ranges, [], 100, "sharpe_ratio", 1, none, none⟩

/-- Whatever is derived from a default of zero starts at one and ends at zero. -/
theorem zero_default_inverted :
    (∀ param ∈ numericParams zeroScript, DeclaredAround param ∧ param.step.isNone = true) ∧
      ∃ range, ofParams (Input.params zeroScript) = .ok [range] ∧
        expand range = .error (.invertedRange "x" "1.0" "0.0") ∧ ¬ NeverInverted [range] := by
  refine ⟨by decide +kernel, ?_⟩
  have hinverted : (ofParams (Input.params zeroScript)).toOption.map
      (fun ranges : List (Range Float) =>
        (ranges.map fun range => Outcome.fault? (expand range),
          Outcome.fault? (planOf [flatBar] (searchOf ranges)))) =
        some ([some (.invertedRange "x" "1.0" "0.0")],
          some (.invertedRange "x" "1.0" "0.0")) := by
    decide +kernel
  obtain ⟨ranges, hranges, hfaults⟩ := Option.map_eq_some_iff.1 hinverted
  obtain ⟨hlisted, hplan⟩ := Prod.mk.inj hfaults
  obtain ⟨range, rfl, hexpand⟩ := List.map_eq_singleton_iff.1 hlisted
  refine ⟨range, Outcome.toOption_eq_some.1 hranges, Outcome.fault?_eq_some.1 hexpand, ?_⟩
  have hsearch : ((optimize (pure zero : StateM Unit Float) (fun _ => (0, ())) () [flatBar]
      (searchOf [range])).run ()).1.outcome = .error (.invertedRange "x" "1.0" "0.0") := by
    rw [optimize, Outcome.fault?_eq_some.1 hplan]
    rfl
  exact fun hnever => hnever _ _ _ _ _ _ _ _ (fun _ => id) _ hsearch _ _ _ rfl

end Backtest.Search
