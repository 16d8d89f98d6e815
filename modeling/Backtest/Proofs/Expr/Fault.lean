import Backtest.Proofs.Expr.Length
import Backtest.Proofs.Expr.Meaning
import Backtest.Proofs.Expr.Part
import Backtest.Proofs.Series.Window

/-!
# What can stop an evaluation

A text without a value is no fault.  Two faults are left, and each has its obstacle in the text: a
count of bars with more digits than an integer may have, and a weighted average over a window whose
weights have no sum.  `evaluate?_sound` says that there are no others, whatever the text is.

The values of names are part of the argument, for a call may take its window from a name.  So every
value that is found is shown to be plain: it is no list, and a number among them is one that the run
knows, from its parameters or from a numeral of its texts.
-/

namespace Backtest

open Text Outcome

variable {α : Type} [Arith α]

/-- Where the numbers of a run come from: its parameters and the texts that it mentions. -/
structure Sources (α : Type) where
  params : Params α
  mentions : Chars → Prop
  part : ∀ {text whole : Chars}, text <:+: whole → mentions whole → mentions text

namespace Sources

variable (sources : Sources α)

/-- A number that a parameter is bound to, or that a mentioned text stands for. -/
inductive Knows : α → Prop
  | param {name : String} {param : Scalar α} {x : α} (hparam : (name, param) ∈ sources.params)
      (hvalue : Value.ofScalar param = .ok (some (.number x))) : Knows x
  | free {text : Chars} {x : α} (hmentions : sources.mentions text)
      (hread : Decimal.number? text = some x) : Knows x
  | numeral {text : Chars} {numeral : Decimal.Numeral} (hmentions : sources.mentions text)
      (hread : Decimal.scriptNumeral? text = some numeral) : Knows numeral.value

/-- A window length that a call can ask for: that of a known number, or the default. -/
def AsksFor (length : Nat) : Prop :=
  length = 14 ∨ ∃ x, sources.Knows x ∧ Scalar.windowLength x = some length

/-- What can be in the way of an evaluation, with the fault that it leads to. -/
inductive Obstacle : Fault → Prop
  | longCount (digits : Chars) (hmentions : sources.mentions ('[' :: (digits ++ [']'])))
      (hdigits : ∀ c ∈ digits, isDigit c = true)
      (hlong : Decimal.longestInteger < digits.length) : Obstacle (.integerTooLong digits.length)
  | heavyWindow (length : Nat) (hcalled : sources.mentions Expr.Builtin.weighted.name.toList)
      (hasks : sources.AsksFor length) (hheavy : ¬ Series.Weighable α length) :
      Obstacle .integerTooLarge

end Sources

variable {sources : Sources α}

/-- A value that is no list, and only a number if it is a known one. -/
def Value.Plain (sources : Sources α) : Value α → Prop
  | .number x => sources.Knows x
  | .list _ => False
  | _ => True

def Environment.Plain (sources : Sources α) (env : Environment α) : Prop :=
  ∀ name value, env.value? name = some value → value.Plain sources

/-- An outcome that only an obstacle can stop and whose value, if it holds one, has a property. -/
structure Sources.Sound {β : Type} (sources : Sources α) (P : β → Prop)
    (outcome : Outcome (Option β)) : Prop where
  fails : FailsBy sources.Obstacle outcome
  gives : Gives P outcome

namespace Sources

section Sound

variable {β γ : Type} {P : β → Prop}

theorem sound_none : sources.Sound P (.ok none) := ⟨failsBy_ok _ _, gives_none P⟩

theorem sound_some {value : β} (hvalue : P value) : sources.Sound P (.ok (some value)) :=
  ⟨failsBy_ok _ _, gives_some hvalue⟩

theorem sound_bind {outcome : Outcome γ} {next : γ → Outcome (Option β)}
    (hfirst : FailsBy sources.Obstacle outcome)
    (hnext : ∀ x, outcome = .ok x → sources.Sound P (next x)) :
    sources.Sound P (outcome >>= next) :=
  ⟨failsBy_bind hfirst fun x hx => (hnext x hx).fails, gives_bind fun x hx => (hnext x hx).gives⟩

end Sound

end Sources

theorem Value.Plain.numeric {value : Value α} (hvalue : value.Plain sources) (bars : Nat) :
    FailsBy sources.Obstacle (value.numeric bars) := by
  cases value
  case list => exact hvalue.elim
  all_goals exact failsBy_ok _ _

namespace Expr

open Sources

variable {context : Context α} {operand : Evaluator α}

/-! ## Operands -/

/-- The value of an operand is plain, and only an obstacle can stop its evaluation. -/
abbrev Operand (sources : Sources α) (operand : Evaluator α) (text : Chars) : Prop :=
  sources.Sound (Value.Plain sources) (operand text)

theorem numericValue_failsBy {value : Option (Value α)}
    (hvalue : ∀ x, value = some x → x.Plain sources) :
    FailsBy sources.Obstacle (numericValue context value) := by
  cases value with
  | none => exact failsBy_ok _ _
  | some value => exact (hvalue value rfl).numeric context.bars

theorem numericOf_failsBy {text : Chars} (htext : Operand sources operand text) :
    FailsBy sources.Obstacle (numericOf context operand text) :=
  failsBy_bind htext.fails fun _ hvalue => numericValue_failsBy fun x hx =>
    htext.gives x (hx ▸ hvalue)

theorem truthOf_failsBy {text : Chars} (htext : Operand sources operand text) :
    FailsBy sources.Obstacle (truthOf context operand text) := by
  refine failsBy_bind htext.fails fun found _ => ?_
  cases found <;> exact failsBy_ok _ _

theorem bothOf_failsBy {β : Type} {side : Chars → Outcome (Option β)} {left right : Chars}
    (hleft : FailsBy sources.Obstacle (side left))
    (hright : FailsBy sources.Obstacle (side right)) :
    FailsBy sources.Obstacle (bothOf side (left, right)) := by
  refine failsBy_bind hleft fun x _ => failsBy_bind hright fun y _ => ?_
  cases x <;> cases y <;> exact failsBy_ok _ _

theorem sound_firstOf {ι β : Type} {P : β → Prop} {input : ι}
    {attempts : List (ι → Outcome (Option β))}
    (hattempts : ∀ attempt ∈ attempts, sources.Sound P (attempt input)) :
    sources.Sound P (firstOf input attempts) := by
  induction attempts with
  | nil => exact sound_none
  | cons attempt others ih =>
      have hfirst := hattempts attempt List.mem_cons_self
      refine sound_bind hfirst.fails fun value hvalue => ?_
      cases value with
      | some value => exact sound_some (hfirst.gives value hvalue)
      | none => exact ih fun other hother => hattempts other (List.mem_cons_of_mem _ hother)

/-! ## Operators -/

section Operators

variable {text : Chars}

theorem pick_sound {chosen : Flags} {x y : Option (Value α)}
    (hx : ∀ value, x = some value → value.Plain sources)
    (hy : ∀ value, y = some value → value.Plain sources) :
    sources.Sound (Value.Plain sources) (pick context chosen x y) := by
  rw [pick]
  split
  · exact sound_some trivial
  · refine sound_bind (numericValue_failsBy hx) fun xs _ => ?_
    refine sound_bind (numericValue_failsBy hy) fun ys _ => ?_
    cases xs with
    | none => exact sound_none
    | some xs =>
        cases ys with
        | none => exact sound_none
        | some ys => exact sound_some trivial

theorem ternary_sound (hparts : ∀ part, Part part text → Operand sources operand part) :
    sources.Sound (Value.Plain sources) (ternary context operand text) := by
  rw [ternary]
  split
  · exact sound_none
  · next condition branches hsplit =>
      obtain ⟨hcondition, hbranches⟩ := part_of_firstSplit hsplit
      split
      · exact sound_none
      · next first second hbranch =>
          obtain ⟨hfirst, hsecond⟩ := part_of_firstSplit hbranch
          have hx := hparts first (hfirst.trans hbranches)
          have hy := hparts second (hsecond.trans hbranches)
          refine sound_bind (truthOf_failsBy (hparts condition hcondition)) fun chosen _ => ?_
          cases chosen with
          | none => exact sound_none
          | some chosen =>
              refine sound_bind hx.fails fun x hvalue => ?_
              refine sound_bind hy.fails fun y hvalue' => ?_
              exact pick_sound (fun value heq => hx.gives value (heq ▸ hvalue))
                fun value heq => hy.gives value (heq ▸ hvalue')

theorem junction_sound (hparts : ∀ part, Part part text → Operand sources operand part)
    (kind : Junction) (symbol : Chars) :
    sources.Sound (Value.Plain sources) (junction context operand kind symbol text) := by
  rw [junction]
  split
  · exact sound_none
  · next texts hsplit =>
      obtain ⟨left, right⟩ := texts
      obtain ⟨hleft, hright⟩ := part_of_firstSplit hsplit
      refine sound_bind (bothOf_failsBy (truthOf_failsBy (hparts left hleft))
        (truthOf_failsBy (hparts right hright))) fun sides _ => ?_
      cases sides with
      | none => exact sound_none
      | some sides => exact sound_some trivial

theorem negation_sound (hparts : ∀ part, Part part text → Operand sources operand part) :
    sources.Sound (Value.Plain sources) (negation context operand text) := by
  rw [negation]
  split
  · exact sound_none
  · next rest hrest =>
      refine sound_bind (truthOf_failsBy (hparts rest (part_of_negated? hrest))) fun flags _ => ?_
      cases flags with
      | none => exact sound_none
      | some flags => exact sound_some trivial

theorem textEquality_plain {kind : Comparison} {x y value : Value α}
    (hvalue : textEquality context kind x y = some value) : value.Plain sources := by
  cases kind with
  | equals =>
      injection hvalue with hvalue
      exact hvalue ▸ trivial
  | differs =>
      injection hvalue with hvalue
      exact hvalue ▸ trivial
  | _ => exact nomatch hvalue

theorem comparison_sound (hparts : ∀ part, Part part text → Operand sources operand part)
    (kind : Comparison) :
    sources.Sound (Value.Plain sources) (comparison context operand kind text) := by
  rw [comparison]
  split
  · exact sound_none
  · next texts hsplit =>
      obtain ⟨left, right⟩ := texts
      obtain ⟨hleft, hright⟩ := part_of_firstSplit hsplit
      have hx := hparts left hleft
      have hy := hparts right hright
      refine sound_bind (bothOf_failsBy (numericOf_failsBy hx) (numericOf_failsBy hy)) ?_
      intro sides _
      cases sides with
      | some sides => exact sound_some trivial
      | none =>
          dsimp only
          split
          · refine sound_bind (bothOf_failsBy hx.fails hy.fails) fun values _ => ?_
            cases values with
            | none => exact sound_none
            | some values =>
                exact ⟨failsBy_ok _ _, fun value hvalue =>
                  textEquality_plain (Except.ok.inj hvalue)⟩
          · exact sound_none

theorem operationAt_sound {left right : Chars} (hleft : Operand sources operand left)
    (hright : Operand sources operand right) (kind : Operation) :
    sources.Sound (Value.Plain sources) (operationAt context operand kind (left, right)) := by
  refine sound_bind (bothOf_failsBy (numericOf_failsBy hleft) (numericOf_failsBy hright)) ?_
  intro sides _
  cases sides with
  | none => exact sound_none
  | some sides => exact sound_some trivial

theorem operation_sound (hparts : ∀ part, Part part text → Operand sources operand part)
    (kind : Operation) :
    sources.Sound (Value.Plain sources) (operation context operand kind text) := by
  apply sound_firstOf
  intro attempt hattempt
  obtain ⟨⟨left, right⟩, hsplit, rfl⟩ := List.mem_map.1 hattempt
  obtain ⟨hleft, hright⟩ := part_of_mem_splits (List.mem_reverse.1 hsplit)
  exact operationAt_sound (hparts left hleft) (hparts right hright) kind

end Operators

/-! ## Windows -/

section Calls

theorem windowOf_asksFor (henv : context.env.Plain sources) {text : Option Chars}
    (htext : ∀ shown, text = some shown → sources.mentions shown) (default : Nat) :
    ∃ length, windowOf context text default = .ok length ∧
      (length = default ∨ ∃ x, sources.Knows x ∧ Scalar.windowLength x = some length) := by
  -- A known number stands for its window, or for the default if it stands for none.
  have hnumber {value : Scalar α} {x : α} (hx : value.toReal = .ok x) (hknows : sources.Knows x) :
      ∃ length, value.period default = .ok length ∧
        (length = default ∨ ∃ x, sources.Knows x ∧ Scalar.windowLength x = some length) := by
    rw [Scalar.period_eq hx]
    cases hlength : Scalar.windowLength x with
    | none => exact ⟨default, rfl, .inl rfl⟩
    | some length => exact ⟨length, rfl, .inr ⟨x, hknows, hlength⟩⟩
  cases text with
  | none => exact ⟨default, rfl, .inl rfl⟩
  | some text =>
      have htrimmed := sources.part (trim_isInfix text) (htext text rfl)
      rw [windowOf]
      split
      · exact ⟨default, rfl, .inl rfl⟩
      · next x hvalue => exact hnumber rfl (henv _ _ hvalue)
      · cases hread : (Decimal.number? (trim text) : Option α) with
        | some x =>
            refine hnumber ?_ (.free htrimmed hread)
            rw [Scalar.toReal, String.toList_ofList, hread]
        | none =>
            refine ⟨default, ?_, .inl rfl⟩
            rw [Scalar.period, Scalar.period?, Scalar.toReal?, Scalar.toReal,
              String.toList_ofList, hread]
            rfl

theorem windowOf_failsBy (henv : context.env.Plain sources) {text : Option Chars}
    (htext : ∀ shown, text = some shown → sources.mentions shown) (default : Nat) :
    FailsBy sources.Obstacle (windowOf context text default) := by
  obtain ⟨length, hlength, _⟩ := windowOf_asksFor henv htext default
  exact failsBy_of_eq_ok hlength

/-! ## Calls -/

/-- The operands of a call: its arguments, which are mentioned, an empty text in the place of one
that it needs, and the prices that may stand for the others. -/
structure Operands (sources : Sources α) (operand : Evaluator α) (arguments : List Chars) :
    Prop where
  argument : ∀ text ∈ arguments, Operand sources operand text
  mentions : ∀ text ∈ arguments, sources.mentions text
  price : ∀ name ∈ ["close", "high", "low"], Operand sources operand name.toList

variable {arguments : List Chars}

theorem Operands.getD (hoperands : Operands sources operand arguments) {missing : Chars}
    (hmissing : Operand sources operand missing) (place : Nat) :
    Operand sources operand (arguments[place]?.getD missing) := by
  cases htext : arguments[place]? with
  | none => exact hmissing
  | some text => exact hoperands.argument text (List.mem_of_getElem? htext)

theorem Operands.windowOf (hoperands : Operands sources operand arguments)
    (henv : context.env.Plain sources) (place default : Nat) :
    FailsBy sources.Obstacle (windowOf context arguments[place]? default) :=
  windowOf_failsBy henv (fun _ htext => hoperands.mentions _ (List.mem_of_getElem? htext)) default

theorem convergenceOf_failsBy (hoperands : Operands sources operand arguments)
    (henv : context.env.Plain sources) :
    FailsBy sources.Obstacle (convergenceOf context operand arguments) := by
  have hsource := hoperands.getD (hoperands.price "close" (by decide)) 0
  refine failsBy_bind (numericOf_failsBy hsource) fun xs _ => ?_
  cases xs with
  | none => exact failsBy_ok _ _
  | some xs =>
      refine failsBy_bind (hoperands.windowOf henv 1 12) fun fast _ => ?_
      refine failsBy_bind (hoperands.windowOf henv 2 26) fun slow _ => ?_
      exact failsBy_bind (hoperands.windowOf henv 3 9) fun signal _ => failsBy_ok _ _

theorem bandsOf_failsBy (hoperands : Operands sources operand arguments)
    (henv : context.env.Plain sources) :
    FailsBy sources.Obstacle (bandsOf context operand arguments) := by
  have hsource := hoperands.getD (hoperands.price "close" (by decide)) 0
  refine failsBy_bind (numericOf_failsBy hsource) fun xs _ => ?_
  cases xs with
  | none => exact failsBy_ok _ _
  | some xs => exact failsBy_bind (hoperands.windowOf henv 1 20) fun period _ => failsBy_ok _ _

theorem namedSeries_failsBy (henv : context.env.Plain sources) (name : String) :
    FailsBy sources.Obstacle (namedSeries context name) := by
  rw [namedSeries]
  split
  · next value hvalue => exact (henv name value hvalue).numeric context.bars
  · exact failsBy_ok _ _

theorem averageRangeOf_sound (hoperands : Operands sources operand arguments)
    (henv : context.env.Plain sources) :
    sources.Sound (Value.Plain sources) (averageRangeOf context arguments) := by
  refine sound_bind (namedSeries_failsBy henv "high") fun high _ => ?_
  refine sound_bind (namedSeries_failsBy henv "low") fun low _ => ?_
  refine sound_bind (namedSeries_failsBy henv "close") fun close _ => ?_
  split
  · exact sound_bind (hoperands.windowOf henv 0 14) fun period _ => sound_some trivial
  · exact sound_none

theorem stochasticOf_sound (hoperands : Operands sources operand arguments)
    (hempty : Operand sources operand []) (henv : context.env.Plain sources) :
    sources.Sound (Value.Plain sources) (stochasticOf context operand arguments) := by
  have htext (place : Nat) {name : String} (hname : name ∈ ["close", "high", "low"]) :
      Operand sources operand
        (if arguments.length ≤ 2 then name.toList else arguments[place]?.getD []) := by
    split
    · exact hoperands.price name hname
    · exact hoperands.getD hempty place
  have hsource := hoperands.getD (hoperands.price "close" (by decide)) 0
  refine sound_bind (numericOf_failsBy hsource) fun source _ => ?_
  refine sound_bind (numericOf_failsBy (htext 1 (by decide : "high" ∈ _))) fun high _ => ?_
  refine sound_bind (numericOf_failsBy (htext 2 (by decide : "low" ∈ _))) fun low _ => ?_
  split
  · refine sound_bind ?_ fun period _ => sound_some trivial
    split
    · exact hoperands.windowOf henv 1 14
    · exact hoperands.windowOf henv 3 14
  · exact sound_none

theorem windowFunction_failsBy {builtin : Builtin} {period : Nat} {xs : Series α}
    {result : Outcome (Series α)} (hcalled : sources.mentions builtin.name.toList)
    (hasks : sources.AsksFor period) (hresult : windowFunction builtin period xs = some result) :
    FailsBy sources.Obstacle result := by
  cases builtin with
  | weighted =>
      injection hresult with hresult
      rw [← hresult]
      refine (Series.weighted_failsBy period xs).mono ?_
      rintro fault ⟨rfl, hheavy⟩
      exact .heavyWindow period hcalled hasks hheavy
  | simple | exponential | wilder | strength | highest | lowest =>
      injection hresult with hresult
      rw [← hresult]
      exact failsBy_ok _ _
  | _ => exact nomatch hresult

theorem windowCall_sound (hoperands : Operands sources operand arguments)
    (henv : context.env.Plain sources) {builtin : Builtin}
    (hcalled : sources.mentions builtin.name.toList) (xs : Series α) :
    sources.Sound (Value.Plain sources) (windowCall context builtin xs arguments) := by
  have hmentions : ∀ shown, arguments[1]? = some shown → sources.mentions shown :=
    fun shown hshown => hoperands.mentions shown (List.mem_of_getElem? hshown)
  obtain ⟨length, hlength, hasks⟩ := windowOf_asksFor henv hmentions 14
  refine sound_bind (failsBy_of_eq_ok hlength) fun period hperiod => ?_
  obtain rfl : length = period := Except.ok.inj (hlength.symm.trans hperiod)
  split
  · exact sound_none
  · next result hresult =>
      exact sound_bind (windowFunction_failsBy hcalled hasks hresult) fun ys _ => sound_some trivial

theorem pairFunction_plain {builtin : Builtin} {xs ys : Series α} {value : Value α}
    (hvalue : pairFunction builtin xs ys = some value) : value.Plain sources := by
  cases builtin with
  | crossover | crossunder | larger | smaller =>
      injection hvalue with hvalue
      exact hvalue ▸ trivial
  | _ => exact nomatch hvalue

theorem pairCall_sound (hoperands : Operands sources operand arguments)
    (hempty : Operand sources operand []) (builtin : Builtin) (xs : Series α) :
    sources.Sound (Value.Plain sources) (pairCall context operand builtin xs arguments) := by
  refine sound_bind (numericOf_failsBy (hoperands.getD hempty 1)) fun ys _ => ?_
  cases ys with
  | none => exact sound_none
  | some ys =>
      exact ⟨failsBy_ok _ _, fun value hvalue => pairFunction_plain (Except.ok.inj hvalue)⟩

theorem sourceCall_sound (hoperands : Operands sources operand arguments)
    (hempty : Operand sources operand []) (henv : context.env.Plain sources) {builtin : Builtin}
    (hcalled : sources.mentions builtin.name.toList) :
    sources.Sound (Value.Plain sources) (sourceCall context operand builtin arguments) := by
  refine sound_bind (numericOf_failsBy (hoperands.getD hempty 0)) fun xs _ => ?_
  cases xs with
  | none => exact sound_none
  | some xs =>
      cases builtin with
      | absolute => exact sound_some trivial
      | defined => exact sound_some trivial
      | crossover | crossunder | larger | smaller => exact pairCall_sound hoperands hempty _ xs
      | _ => exact windowCall_sound hoperands henv hcalled xs

theorem callValue_sound (hoperands : Operands sources operand arguments)
    (hempty : Operand sources operand []) (henv : context.env.Plain sources) {builtin : Builtin}
    (hcalled : sources.mentions builtin.name.toList) :
    sources.Sound (Value.Plain sources) (callValue context operand builtin arguments) := by
  simp only [callValue]
  cases builtin with
  | convergence =>
      refine sound_bind (convergenceOf_failsBy hoperands henv) fun lines _ => ?_
      cases lines with
      | none => exact sound_none
      | some lines => exact sound_some trivial
  | bands =>
      refine sound_bind (bandsOf_failsBy hoperands henv) fun lines _ => ?_
      cases lines with
      | none => exact sound_none
      | some lines => exact sound_some trivial
  | averageRange => exact averageRangeOf_sound hoperands henv
  | stochastic => exact stochasticOf_sound hoperands hempty henv
  | _ => exact sourceCall_sound hoperands hempty henv hcalled

theorem callOf_sound (henv : context.env.Plain sources) {text : Chars}
    (hmentions : sources.mentions text)
    (hparts : ∀ part, Part part text → Operand sources operand part)
    (hprice : ∀ name ∈ ["close", "high", "low"], Operand sources operand name.toList) :
    sources.Sound (Value.Plain sources) (callOf context operand text) := by
  rw [callOf]
  split
  · exact sound_none
  · next call hcall =>
      have hempty : Part [] text := by
        refine ⟨List.nil_infix, ?_⟩
        cases text with
        | nil => cases hcall
        | cons c rest => exact Nat.succ_pos _
      split
      · exact sound_none
      · next builtin hbuiltin =>
          have hname : builtin.name = call.name := by
            have hfound := List.find?_some hbuiltin
            exact eq_of_beq hfound
          have hcalled : sources.mentions builtin.name.toList :=
            hname ▸ sources.part (name_of_call? hcall) hmentions
          have hoperands : Operands sources operand call.arguments := {
            argument := fun part hpart => hparts part (part_of_mem_call hcall hpart)
            mentions := fun part hpart =>
              sources.part (part_of_mem_call hcall hpart).within hmentions
            price := hprice }
          exact callValue_sound hoperands (hparts [] hempty) henv hcalled

end Calls

/-! ## Leaves -/

section Leaves

variable {text : Chars}

/-- A count of bars is read as an integer unless it has too many digits. -/
theorem integer_of_history? {name count : Chars} (hparts : history? text = some (name, count)) :
    (∃ n, Decimal.integer count = .ok n) ∨ Decimal.integer count = .error .malformed ∨
      Decimal.integer count = .error (.tooLong count.length) ∧
        Decimal.longestInteger < count.length := by
  have hdigits := digits_of_history? hparts
  by_cases hempty : count = []
  · subst hempty
    exact .inr (.inl rfl)
  · rw [Decimal.integer_of_forall_isDigit hdigits hempty]
    by_cases hlong : Decimal.longestInteger < count.length
    · rw [if_pos hlong]
      exact .inr (.inr ⟨rfl, hlong⟩)
    · rw [if_neg hlong]
      exact .inl ⟨_, rfl⟩

theorem history_sound (hmentions : sources.mentions text) :
    sources.Sound (Value.Plain sources) (history context text) := by
  rw [history]
  split
  · exact sound_none
  · next name count hparts =>
      have hcount : sources.mentions ('[' :: (count ++ [']'])) := by
        apply sources.part _ hmentions
        rw [eq_of_history? hparts]
        exact (List.suffix_append name _).isInfix
      rcases integer_of_history? hparts with ⟨n, hread⟩ | hread | ⟨hread, hlong⟩
      all_goals
        rw [hread]
        dsimp only
        split
      · exact sound_some trivial
      · exact sound_some trivial
      · exact sound_none
      · exact sound_some trivial
      · exact sound_some trivial
      · exact sound_none
      · exact sound_bind (failsBy_error (.longCount count hcount (digits_of_history? hparts) hlong))
          fun back _ => sound_some trivial
      · exact sound_bind (failsBy_error (.longCount count hcount (digits_of_history? hparts) hlong))
          fun back _ => sound_some trivial
      · exact sound_none

theorem atom_sound (henv : context.env.Plain sources) (hmentions : sources.mentions text) :
    sources.Sound (Value.Plain sources) (atom context text) := by
  rw [atom]
  split
  · exact sound_some trivial
  · split
    · next numeral hread => exact sound_some (.numeral hmentions hread)
    · split
      · exact sound_some trivial
      · split
        · exact sound_some trivial
        · split
          · exact ⟨failsBy_ok _ _, fun value hvalue => henv _ value (Except.ok.inj hvalue)⟩
          · exact sound_none

end Leaves

/-! ## Whole evaluations -/

section Evaluation

/-- An evaluator copes with the mentioned texts up to a length, and with the names of prices. -/
structure Copes (sources : Sources α) (operand : Evaluator α) (bound : Nat) : Prop where
  text : ∀ text, sources.mentions text → (trim text).length < bound → Operand sources operand text
  price : 0 < bound → ∀ name ∈ ["close", "high", "low"], Operand sources operand name.toList

theorem step_sound {bound : Nat} (henv : context.env.Plain sources)
    (hcopes : Copes sources operand bound) {text : Chars} (hmentions : sources.mentions text)
    (hshort : (trim text).length ≤ bound) :
    sources.Sound (Value.Plain sources) (step context operand text) := by
  have hinner : sources.mentions (trim text) := sources.part (trim_isInfix text) hmentions
  have hparts : ∀ part, Part part (trim text) → Operand sources operand part := by
    intro part hpart
    apply hcopes.text part (sources.part hpart.within hinner)
    exact Nat.lt_of_le_of_lt (length_trim_le part) (Nat.lt_of_lt_of_le hpart.shorter hshort)
  rw [step]
  split
  · exact sound_none
  · next hempty =>
      split
      · next hwrapped => exact hparts _ (part_of_isWrapped hwrapped)
      · have hpositive : 0 < bound := by
          refine Nat.lt_of_lt_of_le (List.length_pos_iff.2 fun hnil => hempty ?_) hshort
          rw [hnil]
          rfl
        apply sound_firstOf
        apply forall_mem_constructs
        · exact ternary_sound hparts
        · exact junction_sound hparts
        · exact negation_sound hparts
        · exact comparison_sound hparts
        · exact operation_sound hparts
        · exact history_sound hinner
        · exact callOf_sound henv hinner hparts (hcopes.price hpositive)
        · exact atom_sound henv hinner

/-- A name is looked up at whatever depth, and is no numeral. -/
theorem step_name_sound (henv : context.env.Plain sources) (token : NameToken) :
    sources.Sound (Value.Plain sources) (step context operand token.text) := by
  have hbare : ∀ c ∈ token.text, IsBare c := fun c hc => (token.bare c hc).1
  rw [token.step_eq]
  apply sound_firstOf
  intro attempt hattempt
  rw [List.mem_singleton.1 hattempt, atom, textLiteral?_eq_none_of_bare hbare,
    scriptNumeral?_of_isIdentifier token.identifier]
  dsimp only
  split
  · exact sound_some trivial
  · split
    · exact sound_some trivial
    · rw [token.identifier, if_pos rfl]
      exact ⟨failsBy_ok _ _, fun value hvalue => henv _ value (Except.ok.inj hvalue)⟩

theorem copes_evaluateWithin (henv : context.env.Plain sources) (depth : Nat) :
    Copes sources (evaluateWithin context depth) depth := by
  induction depth with
  | zero => exact ⟨fun _ _ hshort => (nomatch hshort), fun hpositive => (nomatch hpositive)⟩
  | succ depth ih =>
      constructor
      · intro text hmentions hshort
        exact step_sound henv ih hmentions (Nat.le_of_lt_succ hshort)
      · intro _ name hname
        have hnames : ∀ name ∈ ["close", "high", "low"],
            isIdentifier name.toList = true ∧ name.toList ∉ reservedWords := by decide
        obtain ⟨hidentifier, hunreserved⟩ := hnames name hname
        exact step_name_sound henv ⟨name.toList, hidentifier, hunreserved⟩

/-- Only an obstacle can stop the evaluation of a text, and its value, if it has one, is plain. -/
theorem evaluate?_sound (henv : context.env.Plain sources) {text : Chars}
    (hmentions : sources.mentions text) :
    sources.Sound (Value.Plain sources) (evaluate? context text) :=
  (copes_evaluateWithin henv _).text text hmentions (Nat.lt_succ_self _)

/-- Only an obstacle can stop a call with three results. -/
theorem evaluateTriple?_failsBy (henv : context.env.Plain sources) (triple : Triple)
    {arguments : List Chars} (hmentions : ∀ text ∈ arguments, sources.mentions text) :
    FailsBy sources.Obstacle (evaluateTriple? context triple arguments) := by
  have hcopes : Copes sources (argumentEvaluator context arguments) _ :=
    copes_evaluateWithin henv _
  have hlength {text : Chars} (htext : text ∈ arguments) :
      text.length ≤ (arguments.map List.length).foldl max 5 := by
    have hlongest : (5 :: arguments.map List.length).max? = some _ := List.max?_cons'
    have hmem := List.mem_cons_of_mem 5 (List.mem_map_of_mem (f := List.length) htext)
    exact (List.max?_eq_some_iff.1 hlongest).2 _ hmem
  have hoperands : Operands sources (argumentEvaluator context arguments) arguments := {
    argument := fun text htext => hcopes.text text (hmentions text htext)
      (Nat.lt_succ_of_le ((length_trim_le text).trans (hlength htext)))
    mentions := hmentions
    price := hcopes.price (Nat.succ_pos _) }
  cases triple with
  | convergence =>
      exact failsBy_bind (convergenceOf_failsBy hoperands henv) fun lines _ => failsBy_ok _ _
  | bands => exact failsBy_bind (bandsOf_failsBy hoperands henv) fun lines _ => failsBy_ok _ _

end Evaluation

end Expr

end Backtest
