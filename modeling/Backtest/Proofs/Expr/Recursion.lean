import Backtest.Proofs.Exact
import Backtest.Proofs.Expr.Congruence
import Mathlib.Logic.Function.Iterate

/-!
# The recursion of an evaluation

An evaluation is one level (`step`) that is closed over itself.  A level asks for the values of
other texts, and each of them is shorter, white space at its ends aside: parts of the text, nothing,
and the names of prices that calls take for arguments that they lack (`Asks.shorter`).

Hence the recursion ends after as many levels as the text has characters, and one more
(`nests_of_length_lt`).  What the evaluator of operands below these levels does makes no difference
(`iterate_step_eq`), so there is just one function that satisfies the equation of the recursion
(`evaluation_terminates`).
-/

namespace Backtest.Expr

open Text

variable {α : Type} [Arith α] {context : Context α} {text part : Chars}

/-- A level of evaluation of a text asks for the value of another one: the answer there makes a
difference.  An answer can be a fault, which stops the level, so whatever is evaluated is asked for
in this sense. -/
def Asks (context : Context α) (text part : Chars) : Prop :=
  ∃ operand second : Evaluator α, (∀ other, other ≠ part → operand other = second other) ∧
    step context operand text ≠ step context second text

/-- An evaluator that a fault stops at one text; elsewhere it has a value for everything. -/
def stopsAt (part : Option Chars) : Evaluator α := fun other =>
  if other ∈ part then .error .emptyBars else .ok (some (.series []))

/-- What can stop a level is asked for. -/
theorem asks_of_stops (hok : (step context (stopsAt none) text).isOk = true)
    (hstops : (step context (stopsAt (some part)) text).isOk = false) :
    Asks context text part := by
  refine ⟨stopsAt none, stopsAt (some part), fun other hother => ?_, fun heq => ?_⟩
  · have hmiss : other ∉ some part := fun hmem => hother (Option.mem_some.1 hmem).symm
    rw [stopsAt, stopsAt, if_neg hmiss, if_neg (Option.not_mem_none other)]
  · rw [heq, hstops] at hok
    cases hok

/-- A call without arguments asks for the prices that it takes instead. -/
theorem asks_substitute (context : Context α) (builtin : Builtin) :
    ∀ name ∈ builtin.substitutes, Asks context (builtin.name ++ "()").toList name.toList := by
  cases builtin with
  | convergence | bands => exact List.forall_mem_singleton.2 (asks_of_stops rfl rfl)
  | stochastic =>
      exact List.forall_mem_cons.2 ⟨asks_of_stops rfl rfl, List.forall_mem_cons.2
        ⟨asks_of_stops rfl rfl, List.forall_mem_singleton.2 (asks_of_stops rfl rfl)⟩⟩
  | _ => exact nofun

/-- The recursion from a text has a count of levels at most, that of the text itself included. -/
inductive Nests (context : Context α) : Nat → Chars → Prop
  | level {depth : Nat} {text : Chars} (hparts : ∀ part, Asks context text part →
      Nests context depth part) : Nests context (depth + 1) text

/-- Whatever is asked for is shorter. -/
theorem Asks.shorter (hasks : Asks context text part) :
    (trim part).length < (trim text).length := by
  obtain ⟨operand, second, hsame, hdiffer⟩ := hasks
  by_contra hlong
  refine hdiffer (step_congr_shorter fun other hother => hsame other ?_)
  rintro rfl
  exact hlong hother

theorem nests_of_length_lt {depth : Nat} (hdepth : (trim text).length < depth) :
    Nests context depth text := by
  induction depth generalizing text with
  | zero => exact absurd hdepth (Nat.not_lt_zero _)
  | succ depth ih =>
      refine .level fun part hasks => ih ?_
      have hshorter := hasks.shorter
      omega

/-- The bounded evaluator is a count of levels over one that gives up. -/
theorem evaluateWithin_eq_iterate (context : Context α) (depth : Nat) :
    evaluateWithin context depth = (step context)^[depth] fun _ => .error .tooDeep := by
  induction depth with
  | zero => rfl
  | succ depth ih => rw [Function.iterate_succ_apply', ← ih, evaluateWithin]

/-- Over more levels than a text has characters, the evaluator below is never asked. -/
theorem iterate_step_eq {depth bound : Nat} (hdepth : (trim text).length < depth)
    (hbound : (trim text).length < bound) (base second : Evaluator α) :
    (step context)^[depth] base text = (step context)^[bound] second text := by
  induction depth generalizing bound text with
  | zero => exact absurd hdepth (Nat.not_lt_zero _)
  | succ depth ih =>
      obtain ⟨bound, rfl⟩ := Nat.exists_eq_add_of_lt hbound
      rw [Function.iterate_succ_apply', Function.iterate_succ_apply']
      exact step_congr_shorter fun part hpart => ih (by omega) (by omega)

theorem iterate_step_eq_evaluate? (base : Evaluator α) {depth : Nat}
    (hdepth : (trim text).length < depth) :
    (step context)^[depth] base text = evaluate? context text := by
  rw [evaluate?, evaluateWithin_eq_iterate]
  exact iterate_step_eq hdepth (Nat.lt_succ_self _) base _

/-- The recursion of the evaluator goes down from every text to shorter ones, ends within the levels
that the length of the text allows, and has one solution. -/
structure Terminates (context : Context α) : Prop where
  shorter : ∀ text part, Asks context text part → (trim part).length < (trim text).length
  nests : ∀ text, Nests context ((trim text).length + 1) text
  reached : ∀ text base, (step context)^[(trim text).length + 1] base text = evaluate? context text
  solves_iff : ∀ operand : Evaluator α,
    (∀ text, operand text = step context operand text) ↔ operand = evaluate? context

theorem evaluate?_eq_step (context : Context α) (text : Chars) :
    evaluate? context text = step context (evaluate? context) text := by
  rw [evaluate?, evaluateWithin]
  exact step_congr_shorter fun part hpart => evaluateWithin_eq context hpart

/-- Every evaluation terminates, whatever the text is and whatever its names stand for. -/
theorem evaluation_terminates (context : Context α) : Terminates context where
  shorter text part hasks := hasks.shorter
  nests text := nests_of_length_lt (Nat.lt_succ_self _)
  reached text base := iterate_step_eq_evaluate? base (Nat.lt_succ_self _)
  solves_iff operand := by
    constructor
    · intro hsolves
      have hfixed : step context operand = operand := (funext hsolves).symm
      funext text
      rw [← iterate_step_eq_evaluate? operand (Nat.lt_succ_self (trim text).length),
        Function.iterate_fixed hfixed]
    · rintro rfl
      exact evaluate?_eq_step context

/-- The close stands in for the missing source of a call, and it is shorter than the call. -/
theorem evaluation_terminates_call :
    Asks (⟨[], 0⟩ : Context Exact) "ta.macd()".toList "close".toList ∧
      (trim "close".toList).length < (trim "ta.macd()".toList).length ∧
      Nests (⟨[], 0⟩ : Context Exact) 10 "ta.macd()".toList := by
  have hterminates := evaluation_terminates (⟨[], 0⟩ : Context Exact)
  have hasks := asks_substitute (⟨[], 0⟩ : Context Exact) .convergence "close" List.mem_cons_self
  exact ⟨hasks, hterminates.shorter _ _ hasks, hterminates.nests "ta.macd()".toList⟩

end Backtest.Expr
