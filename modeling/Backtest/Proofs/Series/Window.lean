import Backtest.Proofs.Decimal.Quotient
import Backtest.Proofs.Outcome
import Backtest.Series.Average

/-!
# Windows

A scalar that stands for a number stands for a window length or leaves the default.  The weights of
a weighted average are summed up before anything is averaged: over a very long window their sum has
no number, and this is the only fault that an average can end in.
-/

namespace Backtest

open Outcome

variable {α : Type} [Arith α]

theorem Scalar.period_eq {value : Scalar α} {x : α} (hx : value.toReal = .ok x) (default : Nat) :
    value.period default = .ok ((windowLength x).getD default) := by
  rw [period, period?, toReal?, hx]

theorem Scalar.one_le_of_windowLength {x : α} {length : Nat}
    (hlength : windowLength x = some length) : 1 ≤ length := by
  rw [windowLength] at hlength
  split at hlength
  · exact nomatch hlength
  · split at hlength
    · exact nomatch hlength
    · injection hlength with hlength
      omega

/-- A window has a bar at least. -/
theorem Scalar.one_le_of_period {value : Scalar α} {default length : Nat} (hdefault : 1 ≤ default)
    (hlength : value.period default = .ok length) : 1 ≤ length := by
  rw [period] at hlength
  split at hlength
  · next found hfound =>
      injection hlength with hlength
      rw [← hlength]
      cases found with
      | none => exact hdefault
      | some length =>
          rw [period?] at hfound
          split at hfound
          · exact one_le_of_windowLength (Except.ok.inj hfound)
          · exact nomatch Except.ok.inj hfound
          · exact nomatch hfound
  · exact nomatch hlength

namespace Series

/-- The weights of a window have a sum. -/
def Weighable (α : Type) [Arith α] (period : Nat) : Prop :=
  ∃ total : α, weightTotal period = .ok total

theorem weighted_failsBy (period : Nat) (xs : Series α) :
    FailsBy (fun fault => fault = .integerTooLarge ∧ ¬ Weighable α period)
      (weighted period xs) := by
  refine failsBy_bind ?_ fun total _ => failsBy_ok _ _
  intro fault hfault
  constructor
  · rw [weightTotal, Scalar.ofInt] at hfault
    split at hfault
    · cases hfault
    · injection hfault with hfault
      exact hfault.symm
  · rintro ⟨total, htotal⟩
    cases htotal.symm.trans hfault

theorem average_failsBy (kind : AverageKind) (period : Nat) (xs : Series α) :
    FailsBy (fun fault => fault = .integerTooLarge ∧ kind = .weighted ∧ ¬ Weighable α period)
      (average kind period xs) := by
  cases kind with
  | simple => exact failsBy_ok _ _
  | exponential => exact failsBy_ok _ _
  | weighted =>
      exact (weighted_failsBy period xs).mono fun fault hfault => ⟨hfault.1, rfl, hfault.2⟩

/-- The weights of a window that is shorter than `2 ^ 511` bars have a sum among the doubles. -/
theorem weighable_of_lt {period : Nat} (hperiod : period < 2 ^ 511) : Weighable Float period := by
  have htriangle : ((period * (period + 1) : Nat) : Int).natAbs.log2 ≤ 1022 :=
    log2_mul_succ_le hperiod
  obtain ⟨twice, htwice⟩ := Double.exists_ofInt htriangle
  refine ⟨twice / Arith.ofNat 2, ?_⟩
  rw [weightTotal, htwice]
  rfl

end Series

end Backtest
