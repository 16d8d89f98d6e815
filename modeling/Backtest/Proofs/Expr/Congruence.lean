import Backtest.Proofs.Expr.Leaf
import Backtest.Proofs.Expr.Part
import Mathlib.Data.List.Forall2

/-!
# Expressions whose operands have the same values

An expression with an operator has one of a few forms.  A form takes the texts of its operands from
the text (`Form.operands`) and makes a value of theirs (`Form.attempt`); two texts whose operands
have the same values have the same value (`Form.attempt_congr`).  A call also reads its arguments as
window lengths, and it takes a price where it names no source (`ReadAlike.callValue_eq`).

So one level of evaluation depends on the names in the text, on the prices and on the values of the
parts of the text (`step_congr`).  These parts are shorter than the text, and so are the names of
the prices that a call falls back to (`step_congr_shorter`): the bound for the depth of nesting does
not matter, as long as it is larger than the text (`evaluateWithin_eq`).
-/

namespace Backtest

open Text

/-- The names of the prices that calls fall back to. -/
def Scope.prices : List String := ["close", "high", "low"]

namespace Expr

variable {α : Type} [Arith α] {env changed : Environment α} {bars : Nat}
variable {operand second : Evaluator α} {text other : Chars}

/-! ## Operands -/

theorem numericOf_congr (htext : operand text = second other) :
    numericOf ⟨env, bars⟩ operand text = numericOf ⟨changed, bars⟩ second other := by
  rw [numericOf, numericOf, htext]
  rfl

theorem truthOf_congr (htext : operand text = second other) :
    truthOf ⟨env, bars⟩ operand text = truthOf ⟨changed, bars⟩ second other := by
  rw [truthOf, truthOf, htext]

omit [Arith α] in
theorem bothOf_congr {β : Type} {side opposite : Chars → Outcome (Option β)}
    {texts others : Chars × Chars} (hleft : side texts.1 = opposite others.1)
    (hright : side texts.2 = opposite others.2) :
    bothOf side texts = bothOf opposite others := by
  rw [bothOf, bothOf, hleft, hright]

omit [Arith α] in
theorem firstOf_congr {ι κ β : Type} {input : ι} {twin : κ}
    {attempts : List (ι → Outcome (Option β))} {others : List (κ → Outcome (Option β))}
    (hattempts : List.Forall₂ (fun attempt other => attempt input = other twin) attempts others) :
    firstOf input attempts = firstOf twin others := by
  induction hattempts with
  | nil => rfl
  | cons hfirst _ ih => rw [firstOf, firstOf, hfirst, ih]

/-- Attempts count only where all earlier ones have given nothing. -/
theorem firstOf_map_append_congr {ι β : Type} {text other : Chars}
    {attempt second : ι → Chars → Outcome (Option β)} {kinds : List ι}
    {rest others : List (Chars → Outcome (Option β))}
    (hkinds : ∀ earlier kind later, kinds = earlier ++ kind :: later →
      (∀ tried ∈ earlier, attempt tried text = .ok none) → attempt kind text = second kind other)
    (hrest : (∀ kind ∈ kinds, attempt kind text = .ok none) →
      firstOf text rest = firstOf other others) :
    firstOf text (kinds.map attempt ++ rest) = firstOf other (kinds.map second ++ others) := by
  induction kinds with
  | nil => exact hrest nofun
  | cons kind kinds ih =>
      have hkind : attempt kind text = second kind other := hkinds [] kind kinds rfl nofun
      rw [List.map_cons, List.map_cons, List.cons_append, List.cons_append, firstOf, firstOf,
        ← hkind]
      cases hvalue : attempt kind text with
      | error fault => rfl
      | ok value => cases value with
        | some value => rfl
        | none =>
            have hcons {tried : List ι} (htried : ∀ kind ∈ tried, attempt kind text = .ok none) :
                ∀ other ∈ kind :: tried, attempt other text = .ok none :=
              List.forall_mem_cons.2 ⟨hvalue, htried⟩
            exact ih (fun earlier next later hsplit htried =>
              hkinds (kind :: earlier) next later (congrArg (kind :: ·) hsplit) (hcons htried))
              fun htried => hrest (hcons htried)

/-! ## Forms -/

/-- The forms of expressions with an operator. -/
inductive Form where
  | choice
  | junction (kind : Junction) (symbol : Chars)
  | negation
  | comparison (kind : Comparison)
  | operation (kind : Operation)
  deriving DecidableEq

/-- The condition and the two branches of a choice. -/
def branches? (text : Chars) : Option (Chars × Chars × Chars) :=
  (firstSplit ['?'] text).bind fun sides =>
    (firstSplit [':'] sides.2).map fun branches => (sides.1, branches)

/-- The value of a choice from its condition and its branches. -/
def choiceOf (context : Context α) (operand : Evaluator α) (condition first second : Chars) :
    Outcome (Option (Value α)) := do
  match ← truthOf context operand condition with
  | none => pure none
  | some chosen =>
      let x ← operand first
      let y ← operand second
      pick context chosen x y

theorem ternary_eq (context : Context α) (operand : Evaluator α) (text : Chars) :
    ternary context operand text = match branches? text with
      | none => .ok none
      | some (condition, first, second) => choiceOf context operand condition first second := by
  rw [ternary, branches?]
  cases firstSplit ['?'] text with
  | none => rfl
  | some sides =>
      obtain ⟨condition, branches⟩ := sides
      dsimp only [Option.bind_some]
      cases firstSplit [':'] branches <;> rfl

/-- The sides of splits one after the other. -/
def bothSides (splits : List (Chars × Chars)) : List Chars :=
  splits.flatMap fun sides => [sides.1, sides.2]

namespace Form

/-- The forms in the order in which they are tried. -/
def all : List Form :=
  [choice] ++ Junction.disjunction.symbols.map (junction .disjunction) ++
    Junction.conjunction.symbols.map (junction .conjunction) ++ [negation] ++
    Comparison.all.map comparison ++ Operation.all.map operation

/-- The texts of the operands of a form. -/
def operands : Form → Chars → List Chars
  | choice, text => match branches? text with
      | none => []
      | some (condition, first, second) => [condition, first, second]
  | junction _ symbol, text => bothSides (firstSplit symbol text).toList
  | negation, text => (negated? text).toList
  | comparison kind, text => bothSides (firstSplit kind.symbol text).toList
  | operation kind, text => bothSides (splits kind.symbol text)

/-- The value that a form makes of a text. -/
def attempt (context : Context α) (operand : Evaluator α) : Form → Evaluator α
  | choice => ternary context operand
  | junction kind symbol => Expr.junction context operand kind symbol
  | negation => Expr.negation context operand
  | comparison kind => Expr.comparison context operand kind
  | operation kind => Expr.operation context operand kind

end Form

/-- The constructs are the forms, and what has no operator. -/
theorem constructs_eq_forms (context : Context α) (operand : Evaluator α) :
    constructs context operand = Form.all.map (Form.attempt context operand) ++
      [history context, callOf context operand, atom context] := rfl

/-! ## Texts with the same operands -/

omit [Arith α] in
theorem forall₂_of_bothSides {splits others : List (Chars × Chars)}
    (hsides : List.Forall₂ (fun part twin => operand part = second twin)
      (bothSides splits) (bothSides others)) :
    List.Forall₂ (fun sides twins => operand sides.1 = second twins.1 ∧
      operand sides.2 = second twins.2) splits others := by
  induction splits generalizing others with
  | nil => cases others with
    | nil => exact .nil
    | cons twins rest => exact nomatch hsides
  | cons sides rest ih => cases others with
    | nil => exact nomatch hsides
    | cons twins others => match hsides with
      | .cons hleft (.cons hright hrest) => exact .cons ⟨hleft, hright⟩ (ih hrest)

theorem junction_congr {kind : Junction} {symbol : Chars}
    (hoperands : List.Forall₂ (fun part twin => operand part = second twin)
      (bothSides (firstSplit symbol text).toList) (bothSides (firstSplit symbol other).toList)) :
    junction ⟨env, bars⟩ operand kind symbol text =
      junction ⟨changed, bars⟩ second kind symbol other := by
  have hsides := forall₂_of_bothSides hoperands
  match hsplit : firstSplit symbol text, hother : firstSplit symbol other, hsides with
  | none, none, _ => rw [junction, junction, hsplit, hother]
  | some sides, some twins, .cons ⟨hleft, hright⟩ .nil =>
      rw [junction, junction, hsplit, hother]
      dsimp only
      rw [bothOf_congr (truthOf_congr hleft) (truthOf_congr hright)]

theorem comparison_congr {kind : Comparison}
    (hoperands : List.Forall₂ (fun part twin => operand part = second twin)
      (bothSides (firstSplit kind.symbol text).toList)
      (bothSides (firstSplit kind.symbol other).toList)) :
    comparison ⟨env, bars⟩ operand kind text = comparison ⟨changed, bars⟩ second kind other := by
  have hsides := forall₂_of_bothSides hoperands
  match hsplit : firstSplit kind.symbol text, hother : firstSplit kind.symbol other, hsides with
  | none, none, _ => rw [comparison, comparison, hsplit, hother]
  | some sides, some twins, .cons ⟨hleft, hright⟩ .nil =>
      rw [comparison, comparison, hsplit, hother]
      dsimp only
      rw [bothOf_congr (numericOf_congr hleft) (numericOf_congr hright), bothOf_congr hleft hright]
      rfl

theorem operation_congr {kind : Operation}
    (hoperands : List.Forall₂ (fun part twin => operand part = second twin)
      (bothSides (splits kind.symbol text)) (bothSides (splits kind.symbol other))) :
    operation ⟨env, bars⟩ operand kind text = operation ⟨changed, bars⟩ second kind other := by
  have hsides := List.rel_reverse (forall₂_of_bothSides hoperands)
  apply firstOf_congr
  rw [List.forall₂_map_left_iff, List.forall₂_map_right_iff]
  refine hsides.imp fun sides twins htwins => ?_
  rw [operationAt, operationAt,
    bothOf_congr (numericOf_congr htwins.1) (numericOf_congr htwins.2)]

/-- A form makes the same value of texts whose operands have the same values. -/
theorem Form.attempt_congr (form : Form)
    (hoperands : List.Forall₂ (fun part twin => operand part = second twin)
      (form.operands text) (form.operands other)) :
    form.attempt ⟨env, bars⟩ operand text = form.attempt ⟨changed, bars⟩ second other := by
  cases form with
  | choice =>
      rw [operands, operands] at hoperands
      match hsplit : branches? text, hother : branches? other, hoperands with
      | none, none, _ => rw [attempt, attempt, ternary_eq, ternary_eq, hsplit, hother]
      | some (_, _, _), some (_, _, _), .cons hcondition (.cons hfirst (.cons hsecond .nil)) =>
          rw [attempt, attempt, ternary_eq, ternary_eq, hsplit, hother]
          dsimp only
          rw [choiceOf, choiceOf, truthOf_congr hcondition, hfirst, hsecond]
          rfl
  | junction kind symbol => exact junction_congr hoperands
  | negation =>
      rw [operands, operands] at hoperands
      match hsplit : negated? text, hother : negated? other, hoperands with
      | none, none, _ =>
          rw [attempt, attempt, Expr.negation, Expr.negation, hsplit, hother]
      | some rest, some twin, .cons hrest .nil =>
          rw [attempt, attempt, Expr.negation, Expr.negation, hsplit, hother]
          dsimp only
          rw [truthOf_congr hrest]
  | comparison kind => exact comparison_congr hoperands
  | operation kind => exact operation_congr hoperands

/-! ## Calls -/

/-- Two lists of arguments that are read alike, as operands and as window lengths, and with them
what a call takes where it has no argument. -/
structure ReadAlike (bars : Nat) (env changed : Environment α) (operand second : Evaluator α)
    (arguments others : List Chars) : Prop where
  operands : List.Forall₂ (fun part twin => operand part = second twin) arguments others
  windows : List.Forall₂ (fun part twin => ∀ default, windowOf ⟨env, bars⟩ (some part) default =
    windowOf ⟨changed, bars⟩ (some twin) default) arguments others
  nothing : operand [] = second []
  prices : ∀ name ∈ Scope.prices, operand name.toList = second name.toList
  names : ∀ name ∈ Scope.prices, env.value? name = changed.value? name

/-- What is related place by place is so at each place. -/
theorem rel_getElem? {ι κ : Type} {R : ι → κ → Prop} {xs : List ι} {ys : List κ}
    (hall : List.Forall₂ R xs ys) (place : Nat) : Option.Rel R xs[place]? ys[place]? := by
  induction hall generalizing place with
  | nil => exact .none
  | cons hfirst _ ih => cases place with
    | zero => exact .some hfirst
    | succ place => exact ih place

namespace ReadAlike

variable {arguments others : List Chars}
variable (hread : ReadAlike bars env changed operand second arguments others)

include hread

theorem numericOf_eq (place : Nat) {default : Chars} (hdefault : operand default = second default) :
    numericOf ⟨env, bars⟩ operand (arguments[place]?.getD default) =
      numericOf ⟨changed, bars⟩ second (others[place]?.getD default) := by
  apply numericOf_congr
  match arguments[place]?, others[place]?, rel_getElem? hread.operands place with
  | none, none, _ => exact hdefault
  | some part, some twin, .some hpart => exact hpart

theorem windowOf_eq (place default : Nat) :
    windowOf ⟨env, bars⟩ arguments[place]? default =
      windowOf ⟨changed, bars⟩ others[place]? default := by
  match arguments[place]?, others[place]?, rel_getElem? hread.windows place with
  | none, none, _ => rfl
  | some part, some twin, .some hpart => exact hpart default

theorem namedSeries_eq (name : String) (hname : name ∈ Scope.prices) :
    namedSeries ⟨env, bars⟩ name = namedSeries ⟨changed, bars⟩ name := by
  rw [namedSeries, namedSeries]
  dsimp only
  rw [hread.names name hname]

theorem convergenceOf_eq :
    convergenceOf ⟨env, bars⟩ operand arguments = convergenceOf ⟨changed, bars⟩ second others := by
  rw [convergenceOf, convergenceOf, hread.numericOf_eq 0 (hread.prices "close" (by decide)),
    hread.windowOf_eq 1, hread.windowOf_eq 2, hread.windowOf_eq 3]

/-- The width of the bands is read only where all three of them are wanted. -/
theorem bandsOf_eq (hwidth : ∀ default, plainOf ⟨env, bars⟩ arguments[2]? default =
      plainOf ⟨changed, bars⟩ others[2]? default) :
    bandsOf ⟨env, bars⟩ operand arguments = bandsOf ⟨changed, bars⟩ second others := by
  rw [bandsOf, bandsOf, hread.numericOf_eq 0 (hread.prices "close" (by decide)),
    hread.windowOf_eq 1, hwidth]

theorem averageRangeOf_eq :
    averageRangeOf ⟨env, bars⟩ arguments = averageRangeOf ⟨changed, bars⟩ others := by
  rw [averageRangeOf, averageRangeOf, hread.namedSeries_eq "high" (by decide),
    hread.namedSeries_eq "low" (by decide), hread.namedSeries_eq "close" (by decide),
    hread.windowOf_eq 0]

theorem stochasticOf_eq :
    stochasticOf ⟨env, bars⟩ operand arguments = stochasticOf ⟨changed, bars⟩ second others := by
  have hlength : arguments.length = others.length := hread.operands.length_eq
  have hclose := hread.numericOf_eq 0 (hread.prices "close" (by decide))
  have hprice (name : String) (hname : name ∈ Scope.prices) :
      numericOf ⟨env, bars⟩ operand name.toList = numericOf ⟨changed, bars⟩ second name.toList :=
    numericOf_congr (hread.prices name hname)
  rw [stochasticOf, stochasticOf]
  dsimp only [decide_eq_true_eq]
  rw [hclose, hlength]
  by_cases hshort : others.length ≤ 2
  · simp only [if_pos hshort, hprice "high" (by decide), hprice "low" (by decide),
      hread.windowOf_eq 1]
  · simp only [if_neg hshort, hread.numericOf_eq 1 hread.nothing,
      hread.numericOf_eq 2 hread.nothing, hread.windowOf_eq 3]

theorem sourceCall_eq (builtin : Builtin)
    (hfill : builtin = .defined → (fillOf arguments : α) = fillOf others) :
    sourceCall ⟨env, bars⟩ operand builtin arguments =
      sourceCall ⟨changed, bars⟩ second builtin others := by
  have hwindow (builtin : Builtin) (xs : Series α) :
      windowCall ⟨env, bars⟩ builtin xs arguments =
        windowCall ⟨changed, bars⟩ builtin xs others := by
    rw [windowCall, windowCall, hread.windowOf_eq 1]
  have hpair (builtin : Builtin) (xs : Series α) :
      pairCall ⟨env, bars⟩ operand builtin xs arguments =
        pairCall ⟨changed, bars⟩ second builtin xs others := by
    rw [pairCall, pairCall, hread.numericOf_eq 1 hread.nothing]
  rw [sourceCall, sourceCall, hread.numericOf_eq 0 hread.nothing]
  cases builtin with
  | defined => simp only [hfill rfl]
  | _ => simp only [hwindow, hpair]

/-- A call has the same value for arguments that are read alike; what stands in for undefined values
has to be the same number. -/
theorem callValue_eq (builtin : Builtin)
    (hfill : builtin = .defined → (fillOf arguments : α) = fillOf others) :
    callValue ⟨env, bars⟩ operand builtin arguments =
      callValue ⟨changed, bars⟩ second builtin others := by
  cases builtin with
  | convergence => rw [callValue, callValue, hread.convergenceOf_eq]
  | bands =>
      rw [callValue, callValue, bandsOf, bandsOf,
        hread.numericOf_eq 0 (hread.prices "close" (by decide)), hread.windowOf_eq 1]
      cases numericOf ⟨changed, bars⟩ second (others[0]?.getD "close".toList) with
      | error fault => rfl
      | ok source => cases source with
        | none => rfl
        | some xs => cases windowOf ⟨changed, bars⟩ others[1]? 20 <;> rfl
  | averageRange => exact hread.averageRangeOf_eq
  | stochastic => exact hread.stochasticOf_eq
  | _ => exact hread.sourceCall_eq _ hfill

end ReadAlike

theorem callOf_congr (hcall : Option.Rel (fun call twin => call.name = twin.name ∧
      ∀ builtin, Builtin.ofName? call.name = some builtin →
        ReadAlike bars env changed operand second call.arguments twin.arguments ∧
          (builtin = .defined → (fillOf call.arguments : α) = fillOf twin.arguments))
      (call? text) (call? other)) :
    callOf ⟨env, bars⟩ operand text = callOf ⟨changed, bars⟩ second other := by
  match htext : call? text, hother : call? other, hcall with
  | none, none, _ => rw [callOf, callOf, htext, hother]
  | some call, some twin, .some ⟨hname, hread⟩ =>
      rw [callOf, callOf, htext, hother]
      dsimp only
      rw [← hname]
      cases hbuiltin : Builtin.ofName? call.name with
      | none => rfl
      | some builtin =>
          obtain ⟨hread, hfill⟩ := hread builtin hbuiltin
          exact hread.callValue_eq builtin hfill

/-! ## One text -/

theorem history_congr (hname : ∀ name count, history? text = some (name, count) →
      env.value? (String.ofList name) = changed.value? (String.ofList name)) :
    history ⟨env, bars⟩ text = history ⟨changed, bars⟩ text := by
  rw [history, history]
  cases hparts : history? text with
  | none => rfl
  | some parts =>
      obtain ⟨name, count⟩ := parts
      dsimp only
      rw [hname name count hparts]

theorem atom_congr
    (hname : env.value? (String.ofList text) = changed.value? (String.ofList text)) :
    atom ⟨env, bars⟩ text = atom ⟨changed, bars⟩ text := by
  rw [atom, atom]
  dsimp only
  rw [hname]

section Arguments

variable (hname :
  env.value? (String.ofList (trim text)) = changed.value? (String.ofList (trim text)))

include hname

theorem windowOf_congr (default : Nat) :
    windowOf ⟨env, bars⟩ (some text) default = windowOf ⟨changed, bars⟩ (some text) default := by
  rw [windowOf, windowOf]
  dsimp only
  rw [hname]

theorem plainOf_congr (default : α) :
    plainOf ⟨env, bars⟩ (some text) default = plainOf ⟨changed, bars⟩ (some text) default := by
  rw [plainOf, plainOf]
  dsimp only
  rw [hname]

end Arguments

/-- A price is looked up under its name, whatever the operands are. -/
theorem step_price_congr {name : String} (hname : name ∈ Scope.prices)
    (hvalue : env.value? name = changed.value? name) :
    step ⟨env, bars⟩ operand name.toList = step ⟨changed, bars⟩ second name.toList := by
  have htokens : ∀ name ∈ Scope.prices,
      isIdentifier name.toList = true ∧ name.toList ∉ reservedWords := by decide
  obtain ⟨hidentifier, hunreserved⟩ := htokens name hname
  let token : NameToken := ⟨name.toList, hidentifier, hunreserved⟩
  have hatom : atom ⟨env, bars⟩ token.text = atom ⟨changed, bars⟩ token.text :=
    atom_congr (by rwa [String.ofList_toList])
  calc step ⟨env, bars⟩ operand token.text
      = firstOf token.text [atom ⟨env, bars⟩] := token.step_eq
    _ = firstOf token.text [atom ⟨changed, bars⟩] := firstOf_congr (.cons hatom .nil)
    _ = step ⟨changed, bars⟩ second token.text := token.step_eq.symm

/-- The operands of a form are parts of its text. -/
theorem Form.part_of_mem_operands {form : Form} {part : Chars}
    (hpart : part ∈ form.operands text) : Part part text := by
  have hsides {splits : List (Chars × Chars)}
      (hparts : ∀ sides ∈ splits, Part sides.1 text ∧ Part sides.2 text)
      (hmem : part ∈ bothSides splits) : Part part text := by
    obtain ⟨sides, hsides, hmem⟩ := List.mem_flatMap.1 hmem
    rcases List.mem_pair.1 hmem with rfl | rfl
    · exact (hparts sides hsides).1
    · exact (hparts sides hsides).2
  cases form with
  | choice =>
      rw [operands, branches?] at hpart
      cases hquestion : firstSplit ['?'] text with
      | none =>
          rw [hquestion] at hpart
          exact nomatch hpart
      | some sides =>
          obtain ⟨hcondition, hbranches⟩ := part_of_firstSplit hquestion
          cases hcolon : firstSplit [':'] sides.2 with
          | none =>
              rw [hquestion, Option.bind_some, hcolon] at hpart
              exact nomatch hpart
          | some branches =>
              rw [hquestion, Option.bind_some, hcolon] at hpart
              obtain ⟨hfirst, hsecond⟩ := part_of_firstSplit hcolon
              rcases List.mem_cons.1 hpart with rfl | hpart
              · exact hcondition
              · rcases List.mem_pair.1 hpart with rfl | rfl
                · exact hfirst.trans hbranches
                · exact hsecond.trans hbranches
  | junction kind symbol =>
      exact hsides (fun sides hsplit => part_of_firstSplit (Option.mem_toList.1 hsplit)) hpart
  | negation => exact part_of_negated? (Option.mem_toList.1 hpart)
  | comparison kind =>
      exact hsides (fun sides hsplit => part_of_firstSplit (Option.mem_toList.1 hsplit)) hpart
  | operation kind => exact hsides (fun sides hsplit => part_of_mem_splits hsplit) hpart

/-- One level of evaluation depends on the names in a text, on the prices and on the values of the
parts of the text. -/
theorem step_congr
    (hparts : ∀ part, Part part (trim text) → operand part = second part)
    (hnames : ∀ name : String, name.toList <:+: trim text → env.value? name = changed.value? name)
    (hnothing : operand [] = second [])
    (hprices : ∀ name ∈ Scope.prices,
      operand name.toList = second name.toList ∧ env.value? name = changed.value? name) :
    step ⟨env, bars⟩ operand text = step ⟨changed, bars⟩ second text := by
  have hlookup {name : Chars} (hname : name <:+: trim text) :
      env.value? (String.ofList name) = changed.value? (String.ofList name) :=
    hnames _ (by rwa [String.toList_ofList])
  rw [step, step]
  split
  · rfl
  · split
    · next hwrapped => exact hparts _ (part_of_isWrapped hwrapped)
    · rw [constructs_eq_forms, constructs_eq_forms]
      refine firstOf_map_append_congr (fun _ form _ _ _ => ?forms) fun _ => ?rest
      case forms =>
        refine form.attempt_congr (List.forall₂_same.2 fun part hpart => ?_)
        exact hparts part (Form.part_of_mem_operands hpart)
      case rest =>
        have hcall : callOf ⟨env, bars⟩ operand (trim text) =
            callOf ⟨changed, bars⟩ second (trim text) := by
          apply callOf_congr
          cases hcall : call? (trim text) with
          | none => exact .none
          | some call =>
              refine .some ⟨rfl, fun builtin _ => ⟨⟨?_, ?_, hnothing, fun name hname =>
                (hprices name hname).1, fun name hname => (hprices name hname).2⟩, fun _ => rfl⟩⟩
              · exact List.forall₂_same.2 fun part hpart =>
                  hparts part (part_of_mem_call hcall hpart)
              · exact List.forall₂_same.2 fun part hpart => windowOf_congr
                  (hlookup ((trim_isInfix part).trans (part_of_mem_call hcall hpart).within))
        have hhistory : history ⟨env, bars⟩ (trim text) = history ⟨changed, bars⟩ (trim text) := by
          refine history_congr fun name count hparts => hlookup ?_
          rw [eq_of_history? hparts]
          exact (List.prefix_append _ _).isInfix
        exact firstOf_congr (.cons hhistory (.cons hcall
          (.cons (atom_congr (hlookup List.infix_rfl)) .nil)))

/-! ## Shorter texts -/

namespace Builtin

/-- The names that a call takes for arguments that it lacks. -/
def substitutes : Builtin → List String
  | .convergence | .bands => ["close"]
  | .stochastic => ["close", "high", "low"]
  | _ => []

theorem length_substitute_le (builtin : Builtin) :
    ∀ name ∈ builtin.substitutes, name.toList.length ≤ builtin.name.toList.length := by
  cases builtin <;> decide

theorem name_of_ofName? {name : String} {builtin : Builtin}
    (hbuiltin : ofName? name = some builtin) : builtin.name = name := by
  rw [ofName?] at hbuiltin
  have hfound := List.find?_some hbuiltin
  exact eq_of_beq hfound

end Builtin

section Operands

variable {context : Context α} {arguments : List Chars}
variable (harguments : ∀ part ∈ arguments, operand part = second part)
include harguments

theorem numericOf_argument_congr {missing : Chars} (hmissing : operand missing = second missing)
    (place : Nat) : numericOf context operand (arguments[place]?.getD missing) =
      numericOf context second (arguments[place]?.getD missing) := by
  apply numericOf_congr
  cases htext : arguments[place]? with
  | none => exact hmissing
  | some part => exact harguments part (List.mem_of_getElem? htext)

/-- A call asks for its arguments, for an empty text in the place of one that it needs, and for the
names that it takes for others. -/
theorem callValue_congr_operand {builtin : Builtin} (hnothing : operand [] = second [])
    (hsubstitutes : ∀ name ∈ builtin.substitutes, operand name.toList = second name.toList) :
    callValue context operand builtin arguments = callValue context second builtin arguments := by
  have hsource (builtin : Builtin) : sourceCall context operand builtin arguments =
      sourceCall context second builtin arguments := by
    have hpair (xs : Series α) : pairCall context operand builtin xs arguments =
        pairCall context second builtin xs arguments := by
      rw [pairCall, pairCall, numericOf_argument_congr harguments hnothing 1]
    rw [sourceCall, sourceCall, numericOf_argument_congr harguments hnothing 0]
    simp only [hpair]
  cases builtin with
  | convergence =>
      have hclose := hsubstitutes "close" (by decide)
      rw [callValue, callValue, convergenceOf, convergenceOf,
        numericOf_argument_congr harguments hclose 0]
  | bands =>
      have hclose := hsubstitutes "close" (by decide)
      rw [callValue, callValue, bandsOf, bandsOf, numericOf_argument_congr harguments hclose 0]
  | averageRange => rfl
  | stochastic =>
      have hclose := hsubstitutes "close" (by decide)
      have hprice (name : String) (hname : name ∈ Builtin.stochastic.substitutes) :
          numericOf context operand name.toList = numericOf context second name.toList :=
        numericOf_congr (hsubstitutes name hname)
      rw [callValue, callValue, stochasticOf, stochasticOf,
        numericOf_argument_congr harguments hclose 0]
      by_cases hshort : arguments.length ≤ 2
      · simp only [hshort, if_true, hprice "high" (by decide), hprice "low" (by decide)]
      · simp only [hshort, if_false, numericOf_argument_congr harguments hnothing]
  | _ => simp only [callValue, hsource]

end Operands

/-- A call asks for shorter texts only; even the names that it takes for missing arguments are
shorter than its own name with brackets. -/
theorem callOf_congr_shorter {context : Context α}
    (hshorter : ∀ part : Chars, part.length < text.length → operand part = second part) :
    callOf context operand text = callOf context second text := by
  rw [callOf, callOf]
  cases hcall : call? text with
  | none => rfl
  | some call =>
      dsimp only
      cases hbuiltin : Builtin.ofName? call.name with
      | none => rfl
      | some builtin =>
          have hlength := length_name_of_call? hcall
          rw [← Builtin.name_of_ofName? hbuiltin] at hlength
          refine callValue_congr_operand (fun part hpart => ?_) ?_ fun name hname => ?_
          · exact hshorter part (part_of_mem_call hcall hpart).shorter
          · refine hshorter [] ?_
            rw [List.length_nil]
            omega
          · have hname := builtin.length_substitute_le name hname
            exact hshorter name.toList (by omega)

/-- One level of evaluation asks for the values of shorter texts only. -/
theorem step_congr_shorter {context : Context α}
    (hshorter : ∀ part, (trim part).length < (trim text).length → operand part = second part) :
    step context operand text = step context second text := by
  have hshort (part : Chars) (hpart : part.length < (trim text).length) :
      operand part = second part :=
    hshorter part (Nat.lt_of_le_of_lt (length_trim_le part) hpart)
  rw [step, step]
  split
  · rfl
  · split
    · next hwrapped => exact hshort _ (part_of_isWrapped hwrapped).shorter
    · rw [constructs_eq_forms, constructs_eq_forms]
      refine firstOf_map_append_congr (fun _ form _ _ _ => ?forms) fun _ => ?rest
      case forms =>
        exact form.attempt_congr (List.forall₂_same.2 fun part hpart =>
          hshort part (Form.part_of_mem_operands hpart).shorter)
      case rest =>
        exact firstOf_congr (.cons rfl (.cons (callOf_congr_shorter hshort) (.cons rfl .nil)))

/-! ## Depth -/

/-- White space alone has no value. -/
theorem step_of_blank {context : Context α} (hempty : trim text = []) :
    step context operand text = .ok none := by
  rw [step, hempty]
  rfl

theorem step_nil {context : Context α} : step context operand [] = .ok none := step_of_blank rfl

/-- The depth of nesting that is allowed does not count if it is larger than the text. -/
theorem evaluateWithin_eq_evaluateWithin (context : Context α) {depth bound : Nat}
    (hdepth : (trim text).length < depth) (hbound : (trim text).length < bound) :
    evaluateWithin context depth text = evaluateWithin context bound text := by
  induction depth generalizing bound text with
  | zero => exact absurd hdepth (Nat.not_lt_zero _)
  | succ depth ih =>
      cases bound with
      | zero => exact absurd hbound (Nat.not_lt_zero _)
      | succ bound =>
          exact step_congr_shorter fun part hpart => ih (by omega) (by omega)

/-- The depth that an evaluation allows is never used up. -/
theorem evaluateWithin_eq (context : Context α) {depth : Nat}
    (hdepth : (trim text).length < depth) :
    evaluateWithin context depth text = evaluate? context text :=
  evaluateWithin_eq_evaluateWithin context hdepth (Nat.lt_succ_self _)

end Expr

end Backtest
