import Backtest.Expr.Evaluate
import Backtest.Proofs.Decimal.Numeral
import Backtest.Proofs.Expr.Part
import Backtest.Proofs.Series.Truncation
import Mathlib.Data.List.TakeDrop
import Mathlib.Data.List.TakeWhile

/-!
# Expressions over the first bars

Evaluation does not look ahead.  If every series that a name stands for is cut to its first bars,
each text has the value that it had before, cut likewise, or meets the same fault.

The proof follows the layers of the evaluator: every construct commutes with the cut as soon as the
evaluation of its operands does, hence `step` does, and `evaluateWithin` by induction on its depth.
Nothing is assumed of the lengths of the series.
-/

namespace Backtest

section Cuts

variable {α : Type}

/-- The first bars of a value; single values stand for themselves. -/
def Value.take (count : Nat) : Value α → Value α
  | .series values => .series (values.take count)
  | .flags values => .flags (values.take count)
  | .number value => .number value
  | .flag value => .flag value
  | .text value => .text value
  | .list items => .list items

/-- The first bars of every value that a name stands for. -/
def Environment.take (count : Nat) (env : Environment α) : Environment α :=
  env.map fun entry => (entry.1, entry.2.map (Value.take count))

theorem Environment.get?_take (count : Nat) (env : Environment α) (name : String) :
    Record.get? (env.take count) name =
      (Record.get? env name).map (Option.map (Value.take count)) := by
  induction env with
  | nil => rfl
  | cons entry rest ih =>
      rw [Environment.take, List.map_cons, Record.get?, Record.get?]
      split
      · rfl
      · exact ih

theorem Environment.put_take (count : Nat) (env : Environment α) (name : String)
    (value : Option (Value α)) :
    Environment.take count (Record.put env name value) =
      Record.put (env.take count) name (value.map (Value.take count)) := by
  induction env with
  | nil => rfl
  | cons entry rest ih =>
      rw [Record.put, take, take, List.map_cons, Record.put]
      split
      · rfl
      · exact congrArg (_ :: ·) ih

@[simp]
theorem Environment.value?_take (count : Nat) (env : Environment α) (name : String) :
    (env.take count).value? name = (env.value? name).map (Value.take count) := by
  rw [Environment.value?, Environment.value?, get?_take]
  cases Record.get? env name <;> rfl

theorem Environment.bind_take (count : Nat) (env : Environment α) (name : String)
    (value : Value α) :
    (env.bind name value).take count = (env.take count).bind name (value.take count) :=
  put_take count env name (some value)

namespace Value

variable [Arith α]

theorem numeric_take (count bars : Nat) (value : Value α) :
    (value.take count).numeric (min count bars) =
      (value.numeric bars).map (Option.map (List.take count)) := by
  cases value with
  | flags values => exact congrArg (fun xs => Except.ok (some xs)) (Series.ofFlags_take ..)
  | number value => exact congrArg (fun xs => Except.ok (some xs)) List.take_replicate.symm
  | _ => rfl

theorem truth_take (count bars : Nat) (value : Value α) :
    (value.take count).truth (min count bars) = (value.truth bars).map (List.take count) := by
  cases value with
  | series values => exact congrArg some List.map_take
  | number value => exact congrArg some List.take_replicate.symm
  | flag value => exact congrArg some List.take_replicate.symm
  | _ => rfl

omit [Arith α] in
theorem onlyTruth_take (count bars : Nat) (value : Value α) :
    (value.take count).onlyTruth (min count bars) =
      (value.onlyTruth bars).map (List.take count) := by
  cases value with
  | flag value => exact congrArg some List.take_replicate.symm
  | _ => rfl

theorem comparedText_take (count : Nat) (value : Value α) :
    (value.take count).comparedText = value.comparedText := by
  cases value <;> rfl

end Value

end Cuts

namespace Expr

open Text

variable {α : Type} [Arith α] (count : Nat)

def Context.take (context : Context α) : Context α :=
  ⟨context.env.take count, min count context.bars⟩

omit [Arith α] in
theorem Context.value?_take (context : Context α) (name : String) :
    (context.take count).env.value? name = (context.env.value? name).map (Value.take count) :=
  Environment.value?_take ..

/-- An evaluator whose values are cut to the first bars. -/
def Evaluator.take (operand : Evaluator α) : Evaluator α :=
  fun text => (operand text).map (Option.map (Value.take count))

/-- The outcome of a construct, cut to the first bars. -/
abbrev cut (outcome : Outcome (Option (Value α))) : Outcome (Option (Value α)) :=
  outcome.map (Option.map (Value.take count))

omit [Arith α] in
private theorem some_flags {p q : Flags} (h : p = q) :
    (some (.flags p) : Option (Value α)) = some (.flags q) := by rw [h]

omit [Arith α] in
private theorem some_series {xs ys : Series α} (h : xs = ys) :
    (some (.series xs) : Option (Value α)) = some (.series ys) := by rw [h]

omit [Arith α] in
private theorem ok_flags {p q : Flags} (h : p = q) :
    (.ok (some (.flags p)) : Outcome (Option (Value α))) = .ok (some (.flags q)) := by rw [h]

omit [Arith α] in
private theorem ok_series {xs ys : Series α} (h : xs = ys) :
    (.ok (some (.series xs)) : Outcome (Option (Value α))) = .ok (some (.series ys)) := by rw [h]

theorem firstOf_map {ι β : Type} (f : β → β) (input : ι)
    (attempts : List (ι → Outcome (Option β))) :
    firstOf input (attempts.map fun attempt input => (attempt input).map (Option.map f)) =
      (firstOf input attempts).map (Option.map f) := by
  induction attempts with
  | nil => rfl
  | cons attempt others ih =>
      rw [List.map_cons, firstOf, firstOf]
      cases attempt input with
      | error fault => rfl
      | ok result =>
          cases result with
          | some value => rfl
          | none => exact ih

/-! ## Operands -/

section Operands

variable (context : Context α) (operand : Evaluator α)

theorem numericValue_take (value : Option (Value α)) :
    numericValue (context.take count) (value.map (Value.take count)) =
      (numericValue context value).map (Option.map (List.take count)) := by
  cases value with
  | none => rfl
  | some value => exact value.numeric_take ..

theorem numericOf_take (text : Chars) :
    numericOf (context.take count) (operand.take count) text =
      (numericOf context operand text).map (Option.map (List.take count)) := by
  rw [numericOf, numericOf, Evaluator.take]
  cases operand text with
  | error fault => rfl
  | ok value => exact numericValue_take count context value

theorem truthOf_take (text : Chars) :
    truthOf (context.take count) (operand.take count) text =
      (truthOf context operand text).map (Option.map (List.take count)) := by
  rw [truthOf, truthOf, Evaluator.take]
  cases operand text with
  | error fault => rfl
  | ok value =>
      cases value with
      | none => rfl
      | some value => exact congrArg Except.ok (value.truth_take ..)

theorem bothOf_map {β : Type} (f : β → β) (side : Chars → Outcome (Option β))
    (texts : Chars × Chars) :
    bothOf (fun text => (side text).map (Option.map f)) texts =
      (bothOf side texts).map (Option.map (Prod.map f f)) := by
  rw [bothOf, bothOf]
  cases side texts.1 with
  | error fault => rfl
  | ok left =>
      cases side texts.2 with
      | error fault => rfl
      | ok right => cases left <;> cases right <;> rfl

theorem bothNumeric_take (texts : Chars × Chars) :
    bothOf (numericOf (context.take count) (operand.take count)) texts =
      (bothOf (numericOf context operand) texts).map
        (Option.map (Prod.map (List.take count) (List.take count))) := by
  rw [← bothOf_map]
  exact congrArg (bothOf · texts) (funext (numericOf_take count context operand))

theorem bothTruth_take (texts : Chars × Chars) :
    bothOf (truthOf (context.take count) (operand.take count)) texts =
      (bothOf (truthOf context operand) texts).map
        (Option.map (Prod.map (List.take count) (List.take count))) := by
  rw [← bothOf_map]
  exact congrArg (bothOf · texts) (funext (truthOf_take count context operand))

theorem choose_take {β : Type} (chosen : Flags) (xs ys : List β) :
    choose (chosen.take count) (xs.take count) (ys.take count) =
      (choose chosen xs ys).take count := by
  rw [choose, choose, List.zip, ← List.take_zipWith, ← List.take_zipWith]

/-- A choice between the numbers of two branches. -/
theorem pickNumbers_take (chosen : Flags) (x y : Option (Value α)) :
    (do
      let xs ← numericValue (context.take count) (x.map (Value.take count))
      let ys ← numericValue (context.take count) (y.map (Value.take count))
      match xs, ys with
      | some xs, some ys => pure (some (.series (choose (chosen.take count) xs ys)))
      | _, _ => pure none : Outcome (Option (Value α))) =
    cut count (do
      let xs ← numericValue context x
      let ys ← numericValue context y
      match xs, ys with
      | some xs, some ys => pure (some (.series (choose chosen xs ys)))
      | _, _ => pure none) := by
  rw [numericValue_take, numericValue_take]
  cases numericValue context x with
  | error fault => rfl
  | ok xs =>
      cases numericValue context y with
      | error fault => rfl
      | ok ys =>
          cases xs with
          | none => rfl
          | some xs =>
              cases ys with
              | none => rfl
              | some ys => exact ok_series (choose_take ..)

theorem pick_take (chosen : Flags) (x y : Option (Value α)) :
    pick (context.take count) (chosen.take count) (x.map (Value.take count))
        (y.map (Value.take count)) =
      cut count (pick context chosen x y) := by
  have honly (z : Option (Value α)) :
      (z.map (Value.take count)).bind (·.onlyTruth (min count context.bars)) =
        (z.bind (·.onlyTruth context.bars)).map (List.take count) := by
    cases z with
    | none => rfl
    | some z => exact z.onlyTruth_take ..
  have hnumbers := pickNumbers_take count context chosen x y
  simp only [pick]
  rw [show (context.take count).bars = min count context.bars from rfl, honly, honly]
  cases x.bind (·.onlyTruth context.bars) with
  | none => exact hnumbers
  | some p =>
      cases y.bind (·.onlyTruth context.bars) with
      | none => exact hnumbers
      | some q => exact ok_flags (choose_take ..)

theorem ternary_take (text : Chars) :
    ternary (context.take count) (operand.take count) text =
      cut count (ternary context operand text) := by
  simp only [ternary]
  cases firstSplit ['?'] text with
  | none => rfl
  | some parts =>
      dsimp only
      cases firstSplit [':'] parts.2 with
      | none => rfl
      | some sides =>
          dsimp only
          rw [truthOf_take]
          cases truthOf context operand parts.1 with
          | error fault => rfl
          | ok chosen =>
              cases chosen with
              | none => rfl
              | some chosen =>
                  rw [Evaluator.take, Evaluator.take]
                  cases operand sides.1 with
                  | error fault => rfl
                  | ok x =>
                      cases operand sides.2 with
                      | error fault => rfl
                      | ok y => exact pick_take count context chosen x y

theorem junction_take (kind : Junction) (symbol text : Chars) :
    junction (context.take count) (operand.take count) kind symbol text =
      cut count (junction context operand kind symbol text) := by
  simp only [junction]
  cases firstSplit symbol text with
  | none => rfl
  | some texts =>
      dsimp only
      rw [bothTruth_take]
      cases bothOf (truthOf context operand) texts with
      | error fault => rfl
      | ok sides =>
          cases sides with
          | none => rfl
          | some sides =>
              exact ok_flags List.take_zipWith.symm

theorem negation_take (text : Chars) :
    negation (context.take count) (operand.take count) text =
      cut count (negation context operand text) := by
  simp only [negation]
  cases negated? text with
  | none => rfl
  | some rest =>
      dsimp only
      rw [truthOf_take]
      cases truthOf context operand rest with
      | error fault => rfl
      | ok flags =>
          cases flags with
          | none => rfl
          | some flags =>
              exact ok_flags List.map_take

theorem textEquality_take (kind : Comparison) (x y : Value α) :
    textEquality (context.take count) kind (x.take count) (y.take count) =
      (textEquality context kind x y).map (Value.take count) := by
  simp only [textEquality]
  rw [Value.comparedText_take, Value.comparedText_take]
  cases kind with
  | equals => exact some_flags List.take_replicate.symm
  | differs => exact some_flags List.take_replicate.symm
  | _ => rfl

theorem comparison_take (kind : Comparison) (text : Chars) :
    comparison (context.take count) (operand.take count) kind text =
      cut count (comparison context operand kind text) := by
  simp only [comparison]
  cases firstSplit kind.symbol text with
  | none => rfl
  | some texts =>
      dsimp only
      rw [bothNumeric_take]
      cases bothOf (numericOf context operand) texts with
      | error fault => rfl
      | ok sides =>
          cases sides with
          | some sides =>
              exact ok_flags List.take_zipWith.symm
          | none =>
              have hboth : bothOf (operand.take count) texts = _ :=
                bothOf_map (Value.take count) operand texts
              dsimp only [Except.map, Option.map, bind, Except.bind]
              rw [hboth]
              split
              · cases bothOf operand texts with
                | error fault => rfl
                | ok values =>
                    cases values with
                    | none => rfl
                    | some values => exact congrArg Except.ok (textEquality_take ..)
              · rfl

theorem operationAt_take (kind : Operation) (texts : Chars × Chars) :
    operationAt (context.take count) (operand.take count) kind texts =
      cut count (operationAt context operand kind texts) := by
  simp only [operationAt]
  rw [bothNumeric_take]
  cases bothOf (numericOf context operand) texts with
  | error fault => rfl
  | ok sides =>
      cases sides with
      | none => rfl
      | some sides =>
          exact ok_series List.take_zipWith.symm

theorem operation_take (kind : Operation) (text : Chars) :
    operation (context.take count) (operand.take count) kind text =
      cut count (operation context operand kind text) := by
  rw [operation, operation, cut, ← firstOf_map, List.map_map]
  congr 1
  apply List.map_congr_left
  intro texts _
  funext _
  exact operationAt_take count context operand kind texts

end Operands

/-! ## Calls -/

section Calls

variable (context : Context α) (operand : Evaluator α)

theorem history_take (text : Chars) :
    history (context.take count) text = cut count (history context text) := by
  simp only [history]
  cases hparts : history? text with
  | none => rfl
  | some parts =>
      obtain ⟨name, shown⟩ := parts
      have hsign := not_mem_of_history? hparts
      dsimp only
      rw [Context.value?_take]
      cases hread : Decimal.integer shown with
      | error flaw =>
          cases context.env.value? (String.ofList name) with
          | none => rfl
          | some value =>
              cases flaw with
              | tooLong digits => cases value <;> rfl
              | malformed =>
                  cases value with
                  | series values => exact ok_series (Series.shift_take _ (Int.le_refl 0) ..)
                  | flags values => exact ok_flags (Series.shift_take _ (Int.le_refl 0) ..)
                  | _ => rfl
      | ok places =>
          have hplaces := Decimal.integer_nonneg hsign hread
          cases context.env.value? (String.ofList name) with
          | none => rfl
          | some value =>
              cases value with
              | series values => exact ok_series (Series.shift_take _ hplaces ..)
              | flags values => exact ok_flags (Series.shift_take _ hplaces ..)
              | _ => rfl

theorem windowOf_take (text : Option Chars) (default : Nat) :
    windowOf (context.take count) text default = windowOf context text default := by
  simp only [windowOf]
  cases text with
  | none => rfl
  | some text =>
      dsimp only
      rw [Context.value?_take]
      cases context.env.value? (String.ofList (trim text)) with
      | none => rfl
      | some value => cases value <;> rfl

theorem plainOf_take (text : Option Chars) (default : α) :
    plainOf (context.take count) text default = plainOf context text default := by
  simp only [plainOf]
  cases text with
  | none => rfl
  | some text =>
      dsimp only
      rw [Context.value?_take]
      cases context.env.value? (String.ofList (trim text)) with
      | none => rfl
      | some value => cases value <;> rfl

theorem convergenceOf_take (arguments : List Chars) :
    convergenceOf (context.take count) (operand.take count) arguments =
      (convergenceOf context operand arguments).map
        (Option.map (Series.Convergence.take count)) := by
  simp only [convergenceOf]
  rw [numericOf_take]
  simp only [windowOf_take]
  cases numericOf context operand (arguments[0]?.getD "close".toList) with
  | error fault => rfl
  | ok source =>
      cases source with
      | none => rfl
      | some xs =>
          cases windowOf context arguments[1]? 12 with
          | error fault => rfl
          | ok fast =>
              cases windowOf context arguments[2]? 26 with
              | error fault => rfl
              | ok slow =>
                  cases windowOf context arguments[3]? 9 with
                  | error fault => rfl
                  | ok signal =>
                      exact congrArg (fun lines => Except.ok (some lines))
                        (Series.convergence_take ..)

theorem bandsOf_take (arguments : List Chars) :
    bandsOf (context.take count) (operand.take count) arguments =
      (bandsOf context operand arguments).map (Option.map (Series.Bands.take count)) := by
  simp only [bandsOf]
  rw [numericOf_take]
  simp only [windowOf_take, plainOf_take]
  cases numericOf context operand (arguments[0]?.getD "close".toList) with
  | error fault => rfl
  | ok source =>
      cases source with
      | none => rfl
      | some xs =>
          cases windowOf context arguments[1]? 20 with
          | error fault => rfl
          | ok period =>
              exact congrArg (fun lines => Except.ok (some lines)) (Series.bands_take ..)

theorem namedSeries_take (name : String) :
    namedSeries (context.take count) name =
      (namedSeries context name).map (Option.map (List.take count)) := by
  simp only [namedSeries]
  rw [Context.value?_take]
  cases context.env.value? name with
  | none => rfl
  | some value => exact value.numeric_take ..

theorem averageRangeOf_take (arguments : List Chars) :
    averageRangeOf (context.take count) arguments =
      cut count (averageRangeOf context arguments) := by
  simp only [averageRangeOf]
  rw [namedSeries_take, namedSeries_take, namedSeries_take]
  simp only [windowOf_take]
  cases namedSeries context "high" with
  | error fault => rfl
  | ok high =>
      cases namedSeries context "low" with
      | error fault => rfl
      | ok low =>
          cases namedSeries context "close" with
          | error fault => rfl
          | ok close =>
              cases high with
              | none => rfl
              | some high =>
                  cases low with
                  | none => rfl
                  | some low =>
                      cases close with
                      | none => rfl
                      | some close =>
                          cases windowOf context arguments[0]? 14 with
                          | error fault => rfl
                          | ok period => exact ok_series (Series.averageRange_take ..)

theorem stochasticOf_take (arguments : List Chars) :
    stochasticOf (context.take count) (operand.take count) arguments =
      cut count (stochasticOf context operand arguments) := by
  unfold stochasticOf
  dsimp only
  rw [numericOf_take, numericOf_take, numericOf_take]
  simp only [windowOf_take]
  generalize numericOf context operand (arguments[0]?.getD "close".toList) = source
  generalize numericOf context operand (if arguments.length ≤ 2 then _ else _) = high
  generalize numericOf context operand (if arguments.length ≤ 2 then _ else _) = low
  generalize windowOf context (if arguments.length ≤ 2 then _ else _) 14 = period
  cases source with
  | error fault => rfl
  | ok source =>
      cases high with
      | error fault => rfl
      | ok high =>
          cases low with
          | error fault => rfl
          | ok low =>
              cases source with
              | none => rfl
              | some source =>
                  cases high with
                  | none => rfl
                  | some high =>
                      cases low with
                      | none => rfl
                      | some low =>
                          cases period with
                          | error fault => rfl
                          | ok period => exact ok_series (Series.stochastic_take ..)

theorem windowFunction_take (builtin : Builtin) (period : Nat) (xs : Series α) :
    windowFunction builtin period (xs.take count) =
      (windowFunction builtin period xs).map (Except.map (List.take count)) := by
  cases builtin with
  | simple => exact congrArg (fun xs => some (Except.ok xs)) (Series.simple_take ..)
  | exponential => exact congrArg (fun xs => some (Except.ok xs)) (Series.exponential_take ..)
  | weighted => exact congrArg some (Series.weighted_take ..)
  | wilder => exact congrArg (fun xs => some (Except.ok xs)) (Series.wilder_take ..)
  | strength => exact congrArg (fun xs => some (Except.ok xs)) (Series.relativeStrength_take ..)
  | highest => exact congrArg (fun xs => some (Except.ok xs)) (Series.highest_take ..)
  | lowest => exact congrArg (fun xs => some (Except.ok xs)) (Series.lowest_take ..)
  | _ => rfl

theorem pairFunction_take (builtin : Builtin) (xs ys : Series α) :
    pairFunction builtin (xs.take count) (ys.take count) =
      (pairFunction builtin xs ys).map (Value.take count) := by
  cases builtin with
  | crossover => exact some_flags (Series.crossover_take ..)
  | crossunder => exact some_flags (Series.crossunder_take ..)
  | larger => exact some_series List.take_zipWith.symm
  | smaller => exact some_series List.take_zipWith.symm
  | _ => rfl

theorem windowCall_take (builtin : Builtin) (xs : Series α) (arguments : List Chars) :
    windowCall (context.take count) builtin (xs.take count) arguments =
      cut count (windowCall context builtin xs arguments) := by
  simp only [windowCall]
  rw [windowOf_take]
  cases windowOf context arguments[1]? 14 with
  | error fault => rfl
  | ok period =>
      dsimp only [bind, Except.bind]
      rw [windowFunction_take]
      cases windowFunction builtin period xs with
      | none => rfl
      | some result => cases result <;> rfl

theorem pairCall_take (builtin : Builtin) (xs : Series α) (arguments : List Chars) :
    pairCall (context.take count) (operand.take count) builtin (xs.take count) arguments =
      cut count (pairCall context operand builtin xs arguments) := by
  simp only [pairCall]
  rw [numericOf_take]
  cases numericOf context operand (arguments[1]?.getD []) with
  | error fault => rfl
  | ok other =>
      cases other with
      | none => rfl
      | some ys => exact congrArg Except.ok (pairFunction_take ..)

theorem sourceCall_take (builtin : Builtin) (arguments : List Chars) :
    sourceCall (context.take count) (operand.take count) builtin arguments =
      cut count (sourceCall context operand builtin arguments) := by
  simp only [sourceCall]
  rw [numericOf_take]
  cases numericOf context operand (arguments[0]?.getD []) with
  | error fault => rfl
  | ok source =>
      cases source with
      | none => rfl
      | some xs =>
          cases builtin with
          | absolute => exact ok_series List.map_take
          | defined => exact ok_series List.map_take
          | crossover | crossunder | larger | smaller =>
              exact pairCall_take count context operand _ xs arguments
          | _ =>
              dsimp only [Except.map, Option.map, bind, Except.bind]
              exact windowCall_take ..

theorem callValue_take (builtin : Builtin) (arguments : List Chars) :
    callValue (context.take count) (operand.take count) builtin arguments =
      cut count (callValue context operand builtin arguments) := by
  simp only [callValue]
  cases builtin with
  | convergence =>
      dsimp only
      rw [convergenceOf_take]
      cases convergenceOf context operand arguments with
      | error fault => rfl
      | ok lines => cases lines <;> rfl
  | bands =>
      dsimp only
      rw [bandsOf_take]
      cases bandsOf context operand arguments with
      | error fault => rfl
      | ok lines => cases lines <;> rfl
  | averageRange => exact averageRangeOf_take count context arguments
  | stochastic => exact stochasticOf_take count context operand arguments
  | _ => exact sourceCall_take count context operand _ arguments

theorem callOf_take (text : Chars) :
    callOf (context.take count) (operand.take count) text =
      cut count (callOf context operand text) := by
  simp only [callOf]
  cases call? text with
  | none => rfl
  | some call =>
      dsimp only
      cases Builtin.ofName? call.name with
      | none => rfl
      | some builtin => exact callValue_take count context operand builtin call.arguments

theorem atom_take (text : Chars) :
    atom (context.take count) text = cut count (atom context text) := by
  simp only [atom]
  rw [Context.value?_take]
  cases textLiteral? text with
  | some content => rfl
  | none =>
      cases Decimal.scriptNumeral? text with
      | some numeral => rfl
      | none =>
          dsimp only
          repeat' split
          all_goals rfl

end Calls

/-! ## Evaluation -/

section Evaluation

variable (context : Context α)

theorem constructs_take (operand : Evaluator α) :
    constructs (context.take count) (operand.take count) =
      (constructs context operand).map fun attempt text => cut count (attempt text) := by
  have hternary : ternary (context.take count) (operand.take count) = _ :=
    funext (ternary_take count context operand)
  have hjunction (kind : Junction) (symbol : Chars) :
      junction (context.take count) (operand.take count) kind symbol = _ :=
    funext (junction_take count context operand kind symbol)
  have hnegation : negation (context.take count) (operand.take count) = _ :=
    funext (negation_take count context operand)
  have hcomparison (kind : Comparison) :
      comparison (context.take count) (operand.take count) kind = _ :=
    funext (comparison_take count context operand kind)
  have hoperation (kind : Operation) :
      operation (context.take count) (operand.take count) kind = _ :=
    funext (operation_take count context operand kind)
  have hhistory : history (context.take count) = _ := funext (history_take count context)
  have hcall : callOf (context.take count) (operand.take count) = _ :=
    funext (callOf_take count context operand)
  have hatom : atom (context.take count) = _ := funext (atom_take count context)
  simp only [constructs, Junction.symbols, Comparison.all, Operation.all, List.map_cons,
    List.map_nil, List.cons_append, List.nil_append, hternary, hjunction, hnegation, hcomparison,
    hoperation, hhistory, hcall, hatom]

theorem step_take (operand : Evaluator α) (text : Chars) :
    step (context.take count) (operand.take count) text =
      cut count (step context operand text) := by
  unfold step
  dsimp only
  split
  · rfl
  · split
    · rfl
    · rw [constructs_take]
      exact firstOf_map ..

theorem evaluateWithin_take (depth : Nat) :
    evaluateWithin (context.take count) depth = (evaluateWithin context depth).take count := by
  induction depth with
  | zero => rfl
  | succ depth ih =>
      funext text
      rw [evaluateWithin, ih]
      exact step_take ..

/-- The value of a text over the first bars is the first part of its value over all of them. -/
theorem evaluate?_take (text : Chars) :
    evaluate? (context.take count) text = cut count (evaluate? context text) := by
  rw [evaluate?, evaluateWithin_take]
  rfl

/-- The first bars of all three results of a call. -/
def takeTriple (lines : Series α × Series α × Series α) : Series α × Series α × Series α :=
  (lines.1.take count, lines.2.1.take count, lines.2.2.take count)

theorem evaluateTriple?_take (triple : Triple) (arguments : List Chars) :
    evaluateTriple? (context.take count) triple arguments =
      (evaluateTriple? context triple arguments).map (Option.map (takeTriple count)) := by
  have hoperand : argumentEvaluator (context.take count) arguments =
      (argumentEvaluator context arguments).take count := evaluateWithin_take ..
  unfold evaluateTriple?
  dsimp only
  rw [hoperand]
  cases triple with
  | convergence =>
      dsimp only
      rw [convergenceOf_take]
      cases convergenceOf context (argumentEvaluator context arguments) arguments with
      | error fault => rfl
      | ok lines => cases lines <;> rfl
  | bands =>
      dsimp only
      rw [bandsOf_take]
      cases bandsOf context (argumentEvaluator context arguments) arguments with
      | error fault => rfl
      | ok lines => cases lines <;> rfl

end Evaluation

end Expr

end Backtest
