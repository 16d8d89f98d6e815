import Backtest.Expr.Evaluate
import Backtest.Proofs.Outcome
import Backtest.Proofs.Series.Length

/-!
# The length of a value

If every series that a name stands for has one entry for each bar, then so has every series that an
expression stands for.  As with the cut to the first bars, the proof follows the layers of the
evaluator: a construct gives values of the right length as soon as its operands do.
-/

namespace Backtest

variable {α : Type}

/-- A value has one entry for each of a count of bars; single values stretch to any count. -/
def Value.Covers (bars : Nat) : Value α → Prop
  | .series values => values.length = bars
  | .flags values => values.length = bars
  | _ => True

/-- Every name stands for a value that covers the bars. -/
def Environment.Covers (bars : Nat) (env : Environment α) : Prop :=
  ∀ name value, env.value? name = some value → value.Covers bars

/-- A property of the values of all entries is one of the values of all names. -/
theorem Environment.forall_value?_of_mem {P : Value α → Prop} {env : Environment α}
    (hentries : ∀ entry ∈ env, ∀ value, entry.2 = some value → P value) :
    ∀ name value, env.value? name = some value → P value := by
  intro name value hvalue
  obtain ⟨result, hresult, hjoin⟩ := Option.bind_eq_some_iff.1 hvalue
  exact hentries (name, result) (Record.mem_of_get? hresult) value hjoin

theorem Environment.value?_put (env : Environment α) (name other : String)
    (value : Option (Value α)) :
    Environment.value? (Record.put env name value) other =
      if name = other then value else env.value? other := by
  rw [Environment.value?, Environment.value?, Record.get?_put]
  split <;> rfl

/-- A property of the values of all names is kept by a new value that has it. -/
theorem Environment.forall_value?_put {P : Value α → Prop} {env : Environment α}
    (henv : ∀ name value, env.value? name = some value → P value) (name : String)
    {value : Option (Value α)} (hvalue : ∀ x, value = some x → P x) :
    ∀ other x, Environment.value? (Record.put env name value) other = some x → P x := by
  intro other x hx
  rw [value?_put] at hx
  split at hx
  · exact hvalue x hx
  · exact henv other x hx

theorem Environment.Covers.put {bars : Nat} {env : Environment α} (henv : env.Covers bars)
    (name : String) {value : Option (Value α)} (hvalue : ∀ x, value = some x → x.Covers bars) :
    Environment.Covers bars (Record.put env name value) := forall_value?_put henv name hvalue

theorem Environment.Covers.bind {bars : Nat} {env : Environment α} (henv : env.Covers bars)
    (name : String) {value : Value α} (hvalue : value.Covers bars) :
    (env.bind name value).Covers bars := by
  apply henv.put
  intro x hx
  injection hx with hx
  rw [← hx]
  exact hvalue

namespace Value

variable [Arith α] {bars : Nat} {value : Value α}

theorem Covers.numeric (hvalue : value.Covers bars) :
    Outcome.Gives (·.length = bars) (value.numeric bars) := by
  cases value with
  | series values => exact Outcome.gives_some hvalue
  | flags values => exact Outcome.gives_some ((Series.length_ofFlags values).trans hvalue)
  | number value => exact Outcome.gives_some List.length_replicate
  | list items => exact Outcome.gives_error _ _
  | _ => exact Outcome.gives_none _

theorem Covers.length_truth (hvalue : value.Covers bars) {flags : Flags}
    (hflags : value.truth bars = some flags) : flags.length = bars := by
  cases value with
  | series values => injection hflags with hflags; rw [← hflags, List.length_map]; exact hvalue
  | flags values => injection hflags with hflags; rw [← hflags]; exact hvalue
  | number value => injection hflags with hflags; rw [← hflags]; exact List.length_replicate
  | flag value => injection hflags with hflags; rw [← hflags]; exact List.length_replicate
  | _ => exact nomatch hflags

omit [Arith α] in
theorem Covers.length_onlyTruth (hvalue : value.Covers bars) {flags : Flags}
    (hflags : value.onlyTruth bars = some flags) : flags.length = bars := by
  cases value with
  | flags values => injection hflags with hflags; rw [← hflags]; exact hvalue
  | flag value => injection hflags with hflags; rw [← hflags]; exact List.length_replicate
  | _ => exact nomatch hflags

end Value

namespace Expr

open Outcome Text

variable [Arith α]

/-- The names of a context stand for values that cover its bars. -/
def Context.Covered (context : Context α) : Prop := context.env.Covers context.bars

/-- Every value that an evaluator gives covers the bars. -/
def Evaluator.Covers (bars : Nat) (operand : Evaluator α) : Prop :=
  ∀ text, Gives (Value.Covers bars) (operand text)

theorem gives_firstOf {ι β : Type} {P : β → Prop} {input : ι}
    {attempts : List (ι → Outcome (Option β))}
    (hattempts : ∀ attempt ∈ attempts, Gives P (attempt input)) :
    Gives P (firstOf input attempts) := by
  induction attempts with
  | nil => exact gives_none P
  | cons attempt others ih =>
      rw [firstOf]
      apply gives_bind
      intro result hresult
      cases result with
      | none => exact ih fun other hother => hattempts other (List.mem_cons_of_mem _ hother)
      | some value => exact gives_some (hattempts attempt List.mem_cons_self value hresult)

section Operands

variable {context : Context α} {operand : Evaluator α}

theorem numericValue_covers {value : Option (Value α)}
    (hvalue : ∀ x, value = some x → x.Covers context.bars) :
    Gives (·.length = context.bars) (numericValue context value) := by
  cases value with
  | none => exact gives_none _
  | some value => exact (hvalue value rfl).numeric

theorem numericOf_covers (hoperand : operand.Covers context.bars) (text : Chars) :
    Gives (·.length = context.bars) (numericOf context operand text) := by
  apply gives_bind
  intro value hvalue
  apply numericValue_covers
  intro x hx
  rw [hx] at hvalue
  exact hoperand text x hvalue

theorem truthOf_covers (hoperand : operand.Covers context.bars) (text : Chars) :
    Gives (·.length = context.bars) (truthOf context operand text) := by
  apply gives_bind
  intro value hvalue
  cases value with
  | none => exact gives_none _
  | some value =>
      intro flags hflags
      injection hflags with hflags
      exact (hoperand text value hvalue).length_truth hflags

theorem gives_bothOf {β : Type} {P : β → Prop} {side : Chars → Outcome (Option β)}
    (hside : ∀ text, Gives P (side text)) (texts : Chars × Chars) :
    Gives (fun sides => P sides.1 ∧ P sides.2) (bothOf side texts) := by
  apply gives_bind
  intro left hleft
  apply gives_bind
  intro right hright
  cases left with
  | none => exact gives_none _
  | some x =>
      cases right with
      | none => exact gives_none _
      | some y => exact gives_some ⟨hside texts.1 x hleft, hside texts.2 y hright⟩

omit [Arith α] in
theorem length_choose {β : Type} {bars : Nat} {chosen : Flags} {xs ys : List β}
    (hchosen : chosen.length = bars) (hxs : xs.length = bars) (hys : ys.length = bars) :
    (choose chosen xs ys).length = bars := by
  rw [choose, List.length_zipWith, List.length_zip, hchosen, hxs, hys, Nat.min_self, Nat.min_self]

theorem pick_covers {chosen : Flags} {x y : Option (Value α)}
    (hchosen : chosen.length = context.bars)
    (hx : ∀ value, x = some value → value.Covers context.bars)
    (hy : ∀ value, y = some value → value.Covers context.bars) :
    Gives (Value.Covers context.bars) (pick context chosen x y) := by
  rw [pick]
  split
  · next p q hp hq =>
      obtain ⟨u, hu, hp⟩ := Option.bind_eq_some_iff.1 hp
      obtain ⟨v, hv, hq⟩ := Option.bind_eq_some_iff.1 hq
      exact gives_some
        (length_choose hchosen ((hx u hu).length_onlyTruth hp) ((hy v hv).length_onlyTruth hq))
  · apply gives_bind
    intro xs hxs
    apply gives_bind
    intro ys hys
    cases xs with
    | none => exact gives_none _
    | some xs =>
        cases ys with
        | none => exact gives_none _
        | some ys =>
            exact gives_some (length_choose hchosen (numericValue_covers hx xs hxs)
              (numericValue_covers hy ys hys))

theorem ternary_covers (hoperand : operand.Covers context.bars) (text : Chars) :
    Gives (Value.Covers context.bars) (ternary context operand text) := by
  rw [ternary]
  split
  · exact gives_none _
  · split
    · exact gives_none _
    · apply gives_bind
      intro chosen hchosen
      cases chosen with
      | none => exact gives_none _
      | some chosen =>
          apply gives_bind
          intro x hx
          apply gives_bind
          intro y hy
          apply pick_covers (truthOf_covers hoperand _ chosen hchosen)
          · intro value hvalue
            exact hoperand _ value (hvalue ▸ hx)
          · intro value hvalue
            exact hoperand _ value (hvalue ▸ hy)

theorem junction_covers (hoperand : operand.Covers context.bars) (kind : Junction)
    (symbol text : Chars) :
    Gives (Value.Covers context.bars) (junction context operand kind symbol text) := by
  rw [junction]
  split
  · exact gives_none _
  · next texts _ =>
      apply gives_bind
      intro sides hsides
      cases sides with
      | none => exact gives_none _
      | some sides =>
          obtain ⟨hp, hq⟩ := gives_bothOf (truthOf_covers hoperand) texts sides hsides
          exact gives_some (Series.length_zipWith_of hp hq)

theorem negation_covers (hoperand : operand.Covers context.bars) (text : Chars) :
    Gives (Value.Covers context.bars) (negation context operand text) := by
  rw [negation]
  split
  · exact gives_none _
  · next rest _ =>
      apply gives_bind
      intro flags hflags
      cases flags with
      | none => exact gives_none _
      | some flags =>
          exact gives_some ((List.length_map _).trans (truthOf_covers hoperand rest flags hflags))

theorem textEquality_covers {kind : Comparison} {x y value : Value α}
    (hvalue : textEquality context kind x y = some value) : value.Covers context.bars := by
  simp only [textEquality] at hvalue
  cases kind with
  | equals | differs =>
      injection hvalue with hvalue
      rw [← hvalue]
      exact List.length_replicate
  | _ => exact nomatch hvalue

theorem comparison_covers (hoperand : operand.Covers context.bars) (kind : Comparison)
    (text : Chars) :
    Gives (Value.Covers context.bars) (comparison context operand kind text) := by
  rw [comparison]
  split
  · exact gives_none _
  · next texts _ =>
      apply gives_bind
      intro sides hsides
      cases sides with
      | some sides =>
          obtain ⟨hx, hy⟩ := gives_bothOf (numericOf_covers hoperand) texts sides hsides
          exact gives_some (Series.length_zipWith_of hx hy)
      | none =>
          dsimp only
          split
          · apply gives_bind
            intro values _
            cases values with
            | none => exact gives_none _
            | some values =>
                intro value hvalue
                injection hvalue with hvalue
                exact textEquality_covers hvalue
          · exact gives_none _

theorem operationAt_covers (hoperand : operand.Covers context.bars) (kind : Operation)
    (texts : Chars × Chars) :
    Gives (Value.Covers context.bars) (operationAt context operand kind texts) := by
  apply gives_bind
  intro sides hsides
  cases sides with
  | none => exact gives_none _
  | some sides =>
      obtain ⟨hx, hy⟩ := gives_bothOf (numericOf_covers hoperand) texts sides hsides
      exact gives_some (Series.length_zipWith_of hx hy)

theorem operation_covers (hoperand : operand.Covers context.bars) (kind : Operation)
    (text : Chars) :
    Gives (Value.Covers context.bars) (operation context operand kind text) := by
  apply gives_firstOf
  intro attempt hattempt
  obtain ⟨texts, _, rfl⟩ := List.mem_map.1 hattempt
  exact operationAt_covers hoperand kind texts

end Operands

section Calls

variable {context : Context α} {operand : Evaluator α}

theorem history_covers (hcontext : context.Covered) (text : Chars) :
    Gives (Value.Covers context.bars) (history context text) := by
  rw [history]
  split
  · exact gives_none _
  · next name count _ =>
      dsimp only
      split
      · next values hvalues =>
          apply gives_bind
          intro places _
          exact gives_some ((Series.length_shift ..).trans (hcontext _ _ hvalues))
      · next values hvalues =>
          apply gives_bind
          intro places _
          exact gives_some ((Series.length_shift ..).trans (hcontext _ _ hvalues))
      · exact gives_none _

theorem convergenceOf_covers (hoperand : operand.Covers context.bars) (arguments : List Chars) :
    Gives (Series.Convergence.Covers context.bars) (convergenceOf context operand arguments) := by
  apply gives_bind
  intro source hsource
  cases source with
  | none => exact gives_none _
  | some xs =>
      apply gives_bind
      intro fast _
      apply gives_bind
      intro slow _
      apply gives_bind
      intro signal _
      have hxs : xs.length = context.bars := numericOf_covers hoperand _ xs hsource
      rw [← hxs]
      exact gives_some (Series.convergence_covers ..)

theorem bandsOf_covers (hoperand : operand.Covers context.bars) (arguments : List Chars) :
    Gives (Series.Bands.Covers context.bars) (bandsOf context operand arguments) := by
  apply gives_bind
  intro source hsource
  cases source with
  | none => exact gives_none _
  | some xs =>
      apply gives_bind
      intro period _
      have hxs : xs.length = context.bars := numericOf_covers hoperand _ xs hsource
      rw [← hxs]
      exact gives_some (Series.bands_covers ..)

theorem namedSeries_covers (hcontext : context.Covered) (name : String) :
    Gives (·.length = context.bars) (namedSeries context name) := by
  rw [namedSeries]
  split
  · next value hvalue => exact (hcontext name value hvalue).numeric
  · exact gives_none _

theorem averageRangeOf_covers (hcontext : context.Covered) (arguments : List Chars) :
    Gives (Value.Covers context.bars) (averageRangeOf context arguments) := by
  apply gives_bind
  intro high hhigh
  apply gives_bind
  intro low hlow
  apply gives_bind
  intro close hclose
  split
  · next high low close =>
      apply gives_bind
      intro period _
      have hhigh := namedSeries_covers hcontext _ high hhigh
      have hlow := namedSeries_covers hcontext _ low hlow
      have hclose := namedSeries_covers hcontext _ close hclose
      apply gives_some
      rw [Value.Covers, Series.length_averageRange, hhigh, hlow, hclose, Nat.min_self, Nat.min_self]
  · exact gives_none _

theorem stochasticOf_covers (hoperand : operand.Covers context.bars) (arguments : List Chars) :
    Gives (Value.Covers context.bars) (stochasticOf context operand arguments) := by
  apply gives_bind
  intro source hsource
  apply gives_bind
  intro high hhigh
  apply gives_bind
  intro low hlow
  split
  · next source high low =>
      apply gives_bind
      intro period _
      have hsource := numericOf_covers hoperand _ source hsource
      have hhigh := numericOf_covers hoperand _ high hhigh
      have hlow := numericOf_covers hoperand _ low hlow
      apply gives_some
      rw [Value.Covers, Series.length_stochastic, hsource, hhigh, hlow, Nat.min_self, Nat.min_self]
  · exact gives_none _

theorem windowFunction_covers {builtin : Builtin} {period : Nat} {xs ys : Series α}
    {result : Outcome (Series α)} (hresult : windowFunction builtin period xs = some result)
    (hys : result = .ok ys) : ys.length = xs.length := by
  rw [hys] at hresult
  cases builtin with
  | weighted => injection hresult with hresult; exact Series.length_weighted hresult
  | simple | exponential | wilder | strength | highest | lowest =>
      injection hresult with hresult
      injection hresult with hresult
      rw [← hresult]
      first
        | exact Series.length_simple ..
        | exact Series.length_exponential ..
        | exact Series.length_wilder ..
        | exact Series.length_relativeStrength ..
        | exact Series.length_extreme ..
  | _ => exact nomatch hresult

theorem pairFunction_covers {bars : Nat} {builtin : Builtin} {xs ys : Series α} {value : Value α}
    (hxs : xs.length = bars) (hys : ys.length = bars)
    (hvalue : pairFunction builtin xs ys = some value) : value.Covers bars := by
  cases builtin with
  | crossover =>
      injection hvalue with hvalue
      rw [← hvalue, Value.Covers, Series.length_crossover, hxs, hys, Nat.min_self]
  | crossunder =>
      injection hvalue with hvalue
      rw [← hvalue, Value.Covers, Series.length_crossunder, hxs, hys, Nat.min_self]
  | larger => injection hvalue with hvalue; rw [← hvalue]; exact Series.length_zipWith_of hxs hys
  | smaller => injection hvalue with hvalue; rw [← hvalue]; exact Series.length_zipWith_of hxs hys
  | _ => exact nomatch hvalue

theorem windowCall_covers (builtin : Builtin) {xs : Series α} (hxs : xs.length = context.bars)
    (arguments : List Chars) :
    Gives (Value.Covers context.bars) (windowCall context builtin xs arguments) := by
  apply gives_bind
  intro period _
  split
  · exact gives_none _
  · next result hresult =>
      apply gives_bind
      intro ys hys
      exact gives_some ((windowFunction_covers hresult hys).trans hxs)

theorem pairCall_covers (hoperand : operand.Covers context.bars) (builtin : Builtin)
    {xs : Series α} (hxs : xs.length = context.bars) (arguments : List Chars) :
    Gives (Value.Covers context.bars) (pairCall context operand builtin xs arguments) := by
  apply gives_bind
  intro other hother
  cases other with
  | none => exact gives_none _
  | some ys =>
      intro value hvalue
      injection hvalue with hvalue
      exact pairFunction_covers hxs (numericOf_covers hoperand _ ys hother) hvalue

theorem sourceCall_covers (hoperand : operand.Covers context.bars) (builtin : Builtin)
    (arguments : List Chars) :
    Gives (Value.Covers context.bars) (sourceCall context operand builtin arguments) := by
  apply gives_bind
  intro source hsource
  cases source with
  | none => exact gives_none _
  | some xs =>
      have hxs : xs.length = context.bars := numericOf_covers hoperand _ xs hsource
      cases builtin with
      | absolute => exact gives_some ((List.length_map _).trans hxs)
      | defined => exact gives_some ((List.length_map _).trans hxs)
      | crossover | crossunder | larger | smaller => exact pairCall_covers hoperand _ hxs arguments
      | _ => exact windowCall_covers _ hxs arguments

theorem callValue_covers (hcontext : context.Covered) (hoperand : operand.Covers context.bars)
    (builtin : Builtin) (arguments : List Chars) :
    Gives (Value.Covers context.bars) (callValue context operand builtin arguments) := by
  simp only [callValue]
  cases builtin with
  | convergence =>
      apply gives_bind
      intro lines hlines
      cases lines with
      | none => exact gives_none _
      | some lines => exact gives_some (convergenceOf_covers hoperand arguments lines hlines).line
  | bands =>
      apply gives_bind
      intro lines hlines
      cases lines with
      | none => exact gives_none _
      | some lines => exact gives_some (bandsOf_covers hoperand arguments lines hlines).basis
  | averageRange => exact averageRangeOf_covers hcontext arguments
  | stochastic => exact stochasticOf_covers hoperand arguments
  | _ => exact sourceCall_covers hoperand _ arguments

theorem callOf_covers (hcontext : context.Covered) (hoperand : operand.Covers context.bars)
    (text : Chars) : Gives (Value.Covers context.bars) (callOf context operand text) := by
  rw [callOf]
  split
  · exact gives_none _
  · split
    · exact gives_none _
    · exact callValue_covers hcontext hoperand _ _

theorem atom_covers (hcontext : context.Covered) (text : Chars) :
    Gives (Value.Covers context.bars) (atom context text) := by
  rw [atom]
  split
  · exact gives_some trivial
  · split
    · exact gives_some trivial
    · split
      · exact gives_some trivial
      · split
        · exact gives_some trivial
        · split
          · intro value hvalue
            injection hvalue with hvalue
            exact hcontext _ value hvalue
          · exact gives_none _

end Calls

section Evaluation

variable {context : Context α}

/-- A property of all constructs is one of each form. -/
theorem forall_mem_constructs {operand : Evaluator α} {P : Evaluator α → Prop}
    (hternary : P (ternary context operand))
    (hjunction : ∀ kind symbol, P (junction context operand kind symbol))
    (hnegation : P (negation context operand))
    (hcomparison : ∀ kind, P (comparison context operand kind))
    (hoperation : ∀ kind, P (operation context operand kind)) (hhistory : P (history context))
    (hcall : P (callOf context operand)) (hatom : P (atom context)) :
    ∀ attempt ∈ constructs context operand, P attempt := by
  intro attempt hattempt
  simp only [constructs, List.mem_append, List.mem_map, List.mem_cons, List.not_mem_nil,
    or_false] at hattempt
  rcases hattempt with (((((rfl | ⟨symbol, _, rfl⟩) | ⟨symbol, _, rfl⟩) | rfl) | ⟨kind, _, rfl⟩) |
    ⟨kind, _, rfl⟩) | rfl | rfl | rfl
  · exact hternary
  · exact hjunction _ symbol
  · exact hjunction _ symbol
  · exact hnegation
  · exact hcomparison kind
  · exact hoperation kind
  · exact hhistory
  · exact hcall
  · exact hatom

theorem step_covers {operand : Evaluator α} (hcontext : context.Covered)
    (hoperand : operand.Covers context.bars) :
    Evaluator.Covers context.bars (step context operand) := by
  intro text
  unfold step
  dsimp only
  split
  · exact gives_none _
  · split
    · exact hoperand _
    · apply gives_firstOf
      apply forall_mem_constructs
      · exact ternary_covers hoperand _
      · exact fun kind symbol => junction_covers hoperand kind symbol _
      · exact negation_covers hoperand _
      · exact fun kind => comparison_covers hoperand kind _
      · exact fun kind => operation_covers hoperand kind _
      · exact history_covers hcontext _
      · exact callOf_covers hcontext hoperand _
      · exact atom_covers hcontext _

theorem evaluateWithin_covers (hcontext : context.Covered) (depth : Nat) :
    Evaluator.Covers context.bars (evaluateWithin context depth) := by
  induction depth with
  | zero =>
      intro text
      exact gives_error _ _
  | succ depth ih => exact step_covers hcontext ih

/-- The value of a text covers the bars if the values of all names do. -/
theorem evaluate?_covers (hcontext : context.Covered) (text : Chars) :
    Gives (Value.Covers context.bars) (evaluate? context text) :=
  evaluateWithin_covers hcontext _ text

/-- All three results of a call cover the bars if the values of all names do. -/
theorem evaluateTriple?_covers (hcontext : context.Covered) (triple : Triple)
    (arguments : List Chars) :
    Gives (fun lines => lines.1.length = context.bars ∧ lines.2.1.length = context.bars ∧
      lines.2.2.length = context.bars) (evaluateTriple? context triple arguments) := by
  have hoperand : Evaluator.Covers context.bars (argumentEvaluator context arguments) :=
    evaluateWithin_covers hcontext _
  cases triple with
  | convergence =>
      apply gives_bind
      intro lines hlines
      cases lines with
      | none => exact gives_none _
      | some lines =>
          have hcovers := convergenceOf_covers hoperand arguments lines hlines
          exact gives_some ⟨hcovers.line, hcovers.signal, hcovers.histogram⟩
  | bands =>
      apply gives_bind
      intro lines hlines
      cases lines with
      | none => exact gives_none _
      | some lines =>
          have hcovers := bandsOf_covers hoperand arguments lines hlines
          exact gives_some ⟨hcovers.upper, hcovers.basis, hcovers.lower⟩

end Evaluation

end Expr

end Backtest
