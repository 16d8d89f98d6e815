import Backtest.Fault
import Mathlib.Data.List.Forall2

/-!
# Outcomes that may hold nothing

Evaluation has an outcome that is a fault, nothing, or a value.  `Gives P` says that whatever value
an outcome holds has the property `P`; the lemmas take a computation apart step by step, so that a
property of its result can be shown without naming the intermediate outcomes twice.

`FailsBy P` is the same for faults: whatever fault an outcome ends in has the property `P`.  An
outcome that fails by nothing holds a result.

`Alike R` compares two outcomes: they end in the same fault, or hold results that `R` relates.
-/

namespace Backtest.Outcome

variable {β γ : Type}

theorem bind_eq_ok {outcome : Outcome β} {next : β → Outcome γ} {result : γ} :
    outcome >>= next = .ok result ↔ ∃ x, outcome = .ok x ∧ next x = .ok result := by
  cases outcome with
  | error fault => exact ⟨fun h => (nomatch h), fun ⟨_, h, _⟩ => (nomatch h)⟩
  | ok x =>
      constructor
      · intro hnext
        exact ⟨x, rfl, hnext⟩
      · rintro ⟨other, hx, hnext⟩
        injection hx with hx
        rw [hx]
        exact hnext

/-- A computation succeeds if it goes on from its first result to another one. -/
theorem exists_bind {outcome : Outcome β} {next : β → Outcome γ} {x : β} (hx : outcome = .ok x)
    (hnext : ∃ result, next x = .ok result) : ∃ result, outcome >>= next = .ok result := by
  obtain ⟨result, hresult⟩ := hnext
  exact ⟨result, bind_eq_ok.2 ⟨x, hx, hresult⟩⟩

/-- A computation for each entry of a list succeeds if all of them do. -/
theorem mapM_eq_ok_iff {f : β → Outcome γ} {xs : List β} {ys : List γ} :
    xs.mapM f = .ok ys ↔ List.Forall₂ (fun x y => f x = .ok y) xs ys := by
  induction xs generalizing ys with
  | nil =>
      rw [List.forall₂_nil_left_iff]
      exact ⟨fun hys => (Except.ok.inj hys).symm, fun hys => hys ▸ rfl⟩
  | cons x rest ih =>
      rw [List.mapM_cons, bind_eq_ok, List.forall₂_cons_left_iff]
      constructor
      · rintro ⟨y, hy, hrest⟩
        obtain ⟨others, hothers, hys⟩ := bind_eq_ok.1 hrest
        exact ⟨y, others, hy, ih.1 hothers, (Except.ok.inj hys).symm⟩
      · rintro ⟨y, others, hy, hothers, rfl⟩
        exact ⟨y, hy, bind_eq_ok.2 ⟨others, ih.2 hothers, rfl⟩⟩

/-- A computation may go on from a result in another form, if that makes no difference to it. -/
theorem map_bind_congr {δ : Type} {f : β → δ} {next : β → Outcome γ} {last : δ → Outcome γ}
    {outcome : Outcome β} (hnext : ∀ x, last (f x) = next x) :
    outcome.map f >>= last = outcome >>= next := by
  cases outcome with
  | error fault => rfl
  | ok x => exact hnext x

theorem toOption_eq_some {outcome : Outcome β} {x : β} :
    outcome.toOption = some x ↔ outcome = .ok x := by
  cases outcome with
  | error fault => exact ⟨nofun, nofun⟩
  | ok y => exact ⟨fun h => congrArg _ (Option.some.inj h), fun h => congrArg _ (Except.ok.inj h)⟩

/-- What is said of the result of an outcome can be tested. -/
instance {P : β → Prop} [DecidablePred P] (outcome : Outcome β) :
    Decidable (∀ x, outcome = .ok x → P x) :=
  match outcome with
  | .ok x => decidable_of_iff (P x) ⟨fun hx _ hy => Except.ok.inj hy ▸ hx, fun h => h x rfl⟩
  | .error _ => isTrue nofun

/-- The value that an outcome holds, if it holds one, has a property. -/
def Gives (P : β → Prop) (outcome : Outcome (Option β)) : Prop :=
  ∀ value, outcome = .ok (some value) → P value

theorem gives_none (P : β → Prop) : Gives P (.ok none) := by
  intro value hvalue
  injection hvalue with hvalue
  exact nomatch hvalue

theorem gives_some {P : β → Prop} {value : β} (hvalue : P value) : Gives P (.ok (some value)) := by
  intro other hother
  injection hother with hother
  injection hother with hother
  rw [← hother]
  exact hvalue

theorem gives_error (P : β → Prop) (fault : Fault) : Gives P (.error fault) :=
  fun _ h => (nomatch h)

/-- What a computation gives is what its last step gives for some result of the first. -/
theorem gives_bind {P : β → Prop} {outcome : Outcome γ} {next : γ → Outcome (Option β)}
    (hnext : ∀ x, outcome = .ok x → Gives P (next x)) : Gives P (outcome >>= next) := by
  intro value hvalue
  obtain ⟨x, hx, hlast⟩ := bind_eq_ok.1 hvalue
  exact hnext x hx value hlast

/-! ## Faults -/

/-- Whatever fault an outcome ends in has a property. -/
def FailsBy (P : Fault → Prop) (outcome : Outcome β) : Prop :=
  ∀ fault, outcome = .error fault → P fault

variable {P Q : Fault → Prop}

/-- The fault that an outcome ends in. -/
def fault? : Outcome β → Option Fault
  | .error fault => some fault
  | .ok _ => none

theorem fault?_eq_some {outcome : Outcome β} {fault : Fault} :
    fault? outcome = some fault ↔ outcome = .error fault := by
  cases outcome with
  | error other =>
      exact ⟨fun h => congrArg _ (Option.some.inj h), fun h => congrArg _ (Except.error.inj h)⟩
  | ok x => exact ⟨nofun, nofun⟩

theorem fault?_eq_none {outcome : Outcome β} :
    fault? outcome = none ↔ ∃ x, outcome = .ok x := by
  cases outcome with
  | error fault => exact ⟨nofun, nofun⟩
  | ok x => exact ⟨fun _ => ⟨x, rfl⟩, fun _ => rfl⟩

theorem failsBy_ok (P : Fault → Prop) (x : β) : FailsBy P (.ok x : Outcome β) := nofun

theorem failsBy_of_eq_ok {outcome : Outcome β} {x : β} (hx : outcome = .ok x) :
    FailsBy P outcome := hx ▸ failsBy_ok P x

theorem failsBy_error {fault : Fault} (hfault : P fault) :
    FailsBy P (.error fault : Outcome β) := by
  intro other hother
  injection hother with hother
  exact hother ▸ hfault

theorem failsBy_bind {outcome : Outcome γ} {next : γ → Outcome β} (hfirst : FailsBy P outcome)
    (hnext : ∀ x, outcome = .ok x → FailsBy P (next x)) : FailsBy P (outcome >>= next) := by
  cases houtcome : outcome with
  | error fault => exact failsBy_error (hfirst fault houtcome)
  | ok x => exact hnext x houtcome

theorem failsBy_mapM {f : β → Outcome γ} {xs : List β} (hall : ∀ x ∈ xs, FailsBy P (f x)) :
    FailsBy P (xs.mapM f) := by
  induction xs with
  | nil => exact failsBy_ok _ _
  | cons x rest ih =>
      rw [List.mapM_cons]
      refine failsBy_bind (hall x List.mem_cons_self) fun y _ => ?_
      exact failsBy_bind (ih fun z hz => hall z (List.mem_cons_of_mem x hz)) fun _ _ =>
        failsBy_ok _ _

theorem FailsBy.mono {outcome : Outcome β} (hfails : FailsBy P outcome)
    (himplies : ∀ fault, P fault → Q fault) : FailsBy Q outcome :=
  fun fault hfault => himplies fault (hfails fault hfault)

/-- An outcome holds a result, or ends in one of the faults that it can end in. -/
theorem FailsBy.ok_or_error {outcome : Outcome β} (hfails : FailsBy P outcome) :
    (∃ x, outcome = .ok x) ∨ ∃ fault, P fault ∧ outcome = .error fault := by
  cases houtcome : outcome with
  | error fault => exact .inr ⟨fault, hfails fault houtcome, rfl⟩
  | ok x => exact .inl ⟨x, rfl⟩

/-! ## Two outcomes -/

/-- Two outcomes end in the same fault, or hold results that a relation relates. -/
inductive Alike {δ : Type} (R : β → δ → Prop) : Outcome β → Outcome δ → Prop
  | ok {x : β} {y : δ} (hresults : R x y) : Alike R (.ok x) (.ok y)
  | error (fault : Fault) : Alike R (.error fault) (.error fault)

section Alike

variable {δ ε : Type} {R : β → δ → Prop} {S : γ → ε → Prop}
variable {outcome : Outcome β} {other : Outcome δ}

theorem alike_eq (outcome : Outcome β) : Alike Eq outcome outcome := by
  cases outcome with
  | ok x => exact .ok rfl
  | error fault => exact .error fault

theorem alike_bind {next : β → Outcome γ} {last : δ → Outcome ε} (hfirst : Alike R outcome other)
    (hnext : ∀ x y, R x y → Alike S (next x) (last y)) :
    Alike S (outcome >>= next) (other >>= last) := by
  cases hfirst with
  | ok hresults => exact hnext _ _ hresults
  | error fault => exact .error fault

theorem alike_map (f : β → δ) (outcome : Outcome β) :
    Alike (fun x y => f x = y) outcome (outcome.map f) := by
  cases outcome with
  | ok x => exact .ok rfl
  | error fault => exact .error fault

/-- Computations that start alike go on alike. -/
theorem alike_bind_eq {first second : Outcome β} {next : β → Outcome γ} {last : β → Outcome ε}
    (hfirst : first = second) (hnext : ∀ x, Alike S (next x) (last x)) :
    Alike S (first >>= next) (second >>= last) := by
  rw [hfirst]
  exact alike_bind (alike_eq second) fun x y hxy => hxy ▸ hnext x

/-- Computations that start with one and the same outcome. -/
theorem alike_bind_self {next : β → Outcome γ} {last : β → Outcome ε}
    (hnext : ∀ x, outcome = .ok x → Alike S (next x) (last x)) :
    Alike S (outcome >>= next) (outcome >>= last) := by
  cases houtcome : outcome with
  | ok x => exact hnext x houtcome
  | error fault => exact .error fault

theorem Alike.mono {T : β → δ → Prop} (halike : Alike R outcome other)
    (himplies : ∀ x y, R x y → T x y) : Alike T outcome other := by
  cases halike with
  | ok hresults => exact .ok (himplies _ _ hresults)
  | error fault => exact .error fault

theorem Alike.exists_ok (halike : Alike R outcome other) {x : β} (hx : outcome = .ok x) :
    ∃ y, other = .ok y ∧ R x y := by
  cases halike with
  | ok hresults =>
      injection hx with hx
      exact ⟨_, rfl, hx ▸ hresults⟩
  | error fault => exact nomatch hx

end Alike

end Backtest.Outcome
