import Backtest.Proofs.Expr.Congruence

/-!
# What an evaluation looks up

The value of a text depends on an environment only through the names that stand within the text, and
on the three prices that a call takes where it names none.  Two environments that agree on these
names give the text the same value or the same fault (`evaluate?_congr`).

The texts that a run mentions form a scope, which holds the parts of its texts.  One level of
evaluation looks up names that the scope mentions and evaluates parts of its text or one of the three
prices; so evaluators that agree on what the scope sees agree one level higher
(`Evaluator.Agree.step`).  A price is seen as a whole: nothing is looked up under a part of its name.
-/

namespace Backtest

open Text

/-- The texts that a run mentions: with a text all of its parts. -/
structure Scope where
  mentions : Chars → Prop
  part : ∀ {text whole : Chars}, text <:+: whole → mentions whole → mentions text

namespace Scope

/-- The texts that an evaluation may ask for: those that are mentioned, and the prices. -/
def Sees (scope : Scope) (text : Chars) : Prop :=
  scope.mentions text ∨ ∃ name ∈ prices, text = name.toList

/-- The scope of all texts. -/
def everything : Scope := ⟨fun _ => True, fun _ _ => trivial⟩

theorem sees_price (scope : Scope) {name : String} (hname : name ∈ Scope.prices) :
    scope.Sees name.toList := .inr ⟨name, hname, rfl⟩

end Scope

variable {α : Type} [Arith α] {scope : Scope} {env other : Environment α}

/-- Two environments give all names that a scope sees the same values. -/
def Environment.Agree (scope : Scope) (env other : Environment α) : Prop :=
  ∀ name : String, scope.Sees name.toList → env.value? name = other.value? name

namespace Expr

/-- Two evaluators give all texts that a scope sees the same values. -/
def Evaluator.Agree (scope : Scope) (operand second : Evaluator α) : Prop :=
  ∀ text : Chars, scope.Sees text → operand text = second text

variable {bars : Nat} {operand second : Evaluator α} {text : Chars}
variable (hagree : env.Agree scope other)

include hagree

omit [Arith α] in
theorem agree_within {whole : Chars} (hwhole : scope.mentions whole) (name : String)
    (hname : name.toList <:+: whole) : env.value? name = other.value? name :=
  hagree name (.inl (scope.part hname hwhole))

omit [Arith α] in
theorem value?_trim_eq (htext : scope.mentions text) :
    env.value? (String.ofList (trim text)) = other.value? (String.ofList (trim text)) :=
  agree_within hagree htext _ (by rw [String.toList_ofList]; exact trim_isInfix text)

/-- Evaluators that agree on a scope agree one level higher. -/
theorem Evaluator.Agree.step (hoperand : operand.Agree scope second) :
    Evaluator.Agree scope (step ⟨env, bars⟩ operand) (step ⟨other, bars⟩ second) := by
  rintro text (htext | ⟨name, hname, rfl⟩)
  · have hinner : scope.mentions (trim text) := scope.part (trim_isInfix text) htext
    refine step_congr (fun part hpart => ?parts) (agree_within hagree hinner) ?nothing ?prices
    case parts => exact hoperand part (.inl (scope.part hpart.within hinner))
    case nothing => exact hoperand [] (.inl (scope.part List.nil_infix hinner))
    case prices => exact fun name hname =>
      have hsees := scope.sees_price hname
      ⟨hoperand name.toList hsees, hagree name hsees⟩
  · exact step_price_congr hname (hagree name (scope.sees_price hname))

theorem evaluateWithin_congr (depth : Nat) :
    Evaluator.Agree scope (evaluateWithin ⟨env, bars⟩ depth)
      (evaluateWithin ⟨other, bars⟩ depth) := by
  induction depth with
  | zero => exact fun _ _ => rfl
  | succ depth ih => exact ih.step hagree

/-- Environments that agree on the names of a text give it the same value or the same fault. -/
theorem evaluate?_congr (htext : scope.mentions text) :
    evaluate? ⟨env, bars⟩ text = evaluate? ⟨other, bars⟩ text :=
  evaluateWithin_congr hagree _ text (.inl htext)

theorem evaluateTriple?_congr (triple : Triple) {arguments : List Chars}
    (harguments : ∀ text ∈ arguments, scope.mentions text) :
    evaluateTriple? ⟨env, bars⟩ triple arguments =
      evaluateTriple? ⟨other, bars⟩ triple arguments := by
  have hoperand : Evaluator.Agree scope (argumentEvaluator ⟨env, bars⟩ arguments)
      (argumentEvaluator ⟨other, bars⟩ arguments) := evaluateWithin_congr hagree _
  have hread : ReadAlike bars env other (argumentEvaluator ⟨env, bars⟩ arguments)
      (argumentEvaluator ⟨other, bars⟩ arguments) arguments arguments := by
    refine ⟨?_, ?_, ?_, ?_, ?_⟩
    · exact List.forall₂_same.2 fun text htext => hoperand text (.inl (harguments text htext))
    · exact List.forall₂_same.2 fun text htext default =>
        windowOf_congr (value?_trim_eq hagree (harguments text htext)) default
    · rw [argumentEvaluator, argumentEvaluator, evaluateWithin, evaluateWithin, step_nil, step_nil]
    · exact fun name hname => hoperand name.toList (scope.sees_price hname)
    · exact fun name hname => hagree name (scope.sees_price hname)
  cases triple with
  | convergence => simp only [evaluateTriple?, hread.convergenceOf_eq]
  | bands =>
      have hwidth (default : α) : plainOf ⟨env, bars⟩ arguments[2]? default =
          plainOf ⟨other, bars⟩ arguments[2]? default := by
        cases hplace : arguments[2]? with
        | none => rfl
        | some text =>
            have htext := harguments text (List.mem_of_getElem? hplace)
            exact plainOf_congr (value?_trim_eq hagree htext) default
      simp only [evaluateTriple?, hread.bandsOf_eq hwidth]

end Expr

end Backtest
