import Backtest.Proofs.Exact
import Backtest.Proofs.Expr.Leaf
import Backtest.Proofs.Outcome

/-!
# What a printed term evaluates to

The constructs of an expression are tried on its text one after the other, without any syntax tree.
`evaluate_print` says that this finds the meaning of every term that has one, over every arithmetic.

The proof goes by the depth of nesting.  `Finds` says that an evaluator finds the meaning of each
term whose text is short enough; the step from operands to their term is the reading of a sentence
for operators, and of a leaf for the rest.  Junctions are split at their first word although they
may be nested to the left, so a chain of them is turned to the right first, which changes neither
its text nor its meaning.
-/

namespace Backtest.Expr

open Text

variable {α : Type} [Arith α] {context : Context α} {operand : Evaluator α}

/-! ## Kinds of values -/

theorem numericOf_eq {text : Chars} {value : Value α} {xs : Series α}
    (hvalue : operand text = .ok (some value)) (hxs : numbers? context value = some xs) :
    numericOf context operand text = .ok (some xs) := by
  rw [numericOf, hvalue]
  change value.numeric context.bars = _
  rw [numbers?] at hxs
  split at hxs
  · next result hresult => rw [hresult, hxs]
  · exact nomatch hxs

theorem truthOf_eq {text : Chars} {value : Value α} {flags : Flags}
    (hvalue : operand text = .ok (some value)) (hflags : value.truth context.bars = some flags) :
    truthOf context operand text = .ok (some flags) := by
  rw [truthOf, hvalue, ← hflags]
  rfl

/-- Where the sides of a comparison are not both numeric, an equality compares texts. -/
theorem textComparison_eq (context : Context α) (kind : Comparison) {left right : Chars}
    {x y : Value α} (value : Value α) (hx : operand left = .ok (some x))
    (hy : operand right = .ok (some y)) (hequal : textEquality context kind x y = some value) :
    (if kind = .equals ∨ kind = .differs then do
      match ← bothOf operand (left, right) with
      | some (x, y) => pure (textEquality context kind x y)
      | none => pure none
    else pure none : Outcome (Option (Value α))) = .ok (some value) := by
  have hkind : kind = .equals ∨ kind = .differs := by
    cases kind with
    | equals => exact .inl rfl
    | differs => exact .inr rfl
    | _ => cases hequal
  rw [if_pos hkind, bothOf, hx, hy, ← hequal]
  rfl

/-- A comparison gives what its sides compare to. -/
theorem comparison_eq {kind : Comparison} {text left right : Chars} {x y value : Value α}
    (hsplit : firstSplit kind.symbol text = some (left, right))
    (hx : operand left = .ok (some x)) (hy : operand right = .ok (some y))
    (hvalue : compared context kind x y = some value) :
    comparison context operand kind text = .ok (some value) := by
  have hleft : numericOf context operand left = x.numeric context.bars := by
    rw [numericOf, hx]
    rfl
  have hright : numericOf context operand right = y.numeric context.bars := by
    rw [numericOf, hy]
    rfl
  have htexts := textComparison_eq context kind value hx hy
  rw [comparison, hsplit]
  dsimp only
  rw [bothOf, hleft, hright]
  rw [compared] at hvalue
  split at hvalue
  · next xs ys hxs hys =>
      rw [hxs, hys, ← hvalue]
      rfl
  · next xs ys hboth hxs hys =>
      rw [hxs, hys]
      cases xs with
      | none => exact htexts hvalue
      | some xs =>
          cases ys with
          | none => exact htexts hvalue
          | some ys => exact (hboth xs ys rfl rfl).elim
  · cases hvalue

/-! ## Calls -/

/-- An evaluator finds what the parts of a call mean: its arguments, and the prices that may stand
for missing ones. -/
structure Answers (context : Context α) (operand : Evaluator α) (arguments : List Term) : Prop where
  argument : ∀ term ∈ arguments, ∀ value, meaning context term = some value →
    operand term.print = .ok (some value)
  price : ∀ name ∈ ["close", "high", "low"], ∀ value, context.env.value? name = some value →
    operand name.toList = .ok (some value)

theorem meanings_eq_map (arguments : List Term) :
    meanings context arguments = arguments.map (meaning context) := by
  induction arguments with
  | nil => rfl
  | cons term rest ih => rw [meanings, ih, List.map_cons]

section Arguments

variable {arguments : List Term} {place default : Nat}

theorem Answers.numericOf_sourceAt (hanswers : Answers context operand arguments)
    {missing : Option String} {fallback : Chars}
    (hfallback : ∀ value, missing.bind context.env.value? = some value →
      operand fallback = .ok (some value)) {xs : Series α}
    (hxs : sourceAt context (meanings context arguments) place missing = some xs) :
    numericOf context operand ((Term.texts arguments)[place]?.getD fallback) = .ok (some xs) := by
  obtain ⟨value, hvalue, hnumbers⟩ := Option.bind_eq_some_iff.1 hxs
  rw [meanings_eq_map, List.getElem?_map] at hvalue
  rw [Term.texts_eq_map, List.getElem?_map]
  cases hterm : arguments[place]? with
  | none =>
      rw [hterm] at hvalue
      exact numericOf_eq (hfallback value hvalue) hnumbers
  | some term =>
      rw [hterm] at hvalue
      exact numericOf_eq (hanswers.argument term (List.mem_of_getElem? hterm) value hvalue) hnumbers

/-- A source that a call must name. -/
theorem Answers.numericOf_argument (hanswers : Answers context operand arguments) {xs : Series α}
    (hxs : sourceAt context (meanings context arguments) place none = some xs) :
    numericOf context operand ((Term.texts arguments)[place]?.getD []) = .ok (some xs) := by
  have hnone : ∀ value, (none : Option String).bind context.env.value? = some value →
      operand [] = .ok (some value) := nofun
  exact hanswers.numericOf_sourceAt hnone hxs

/-- A source that is the close if the call names none. -/
theorem Answers.numericOf_close (hanswers : Answers context operand arguments) {xs : Series α}
    (hxs : sourceAt context (meanings context arguments) place (some "close") = some xs) :
    numericOf context operand ((Term.texts arguments)[place]?.getD "close".toList) =
      .ok (some xs) := by
  have hclose : ∀ value, (some "close").bind context.env.value? = some value →
      operand "close".toList = .ok (some value) := hanswers.price "close" (by decide)
  exact hanswers.numericOf_sourceAt hclose hxs

theorem Answers.numericOf_price (hanswers : Answers context operand arguments) {name : String}
    (hname : name ∈ ["close", "high", "low"]) {xs : Series α}
    (hxs : sourceAt context [] 0 (some name) = some xs) :
    numericOf context operand name.toList = .ok (some xs) := by
  obtain ⟨value, hvalue, hnumbers⟩ := Option.bind_eq_some_iff.1 hxs
  exact numericOf_eq (hanswers.price name hname value hvalue) hnumbers

theorem namedSeries_sourceAt {name : String} {xs : Series α}
    (hxs : sourceAt context [] 0 (some name) = some xs) :
    namedSeries context name = .ok (some xs) := by
  obtain ⟨value, hvalue, hnumbers⟩ := Option.bind_eq_some_iff.1 hxs
  change context.env.value? name = some value at hvalue
  rw [numbers?] at hnumbers
  split at hnumbers
  · next result hresult => rw [namedSeries, hvalue, ← hnumbers]; exact hresult
  · exact nomatch hnumbers

theorem Term.print_numeral (token : NumeralToken) : (Term.numeral token).print = token.text :=
  spell_atom token.text

theorem Term.print_name (token : NameToken) : (Term.name token).print = token.text :=
  spell_atom token.text

theorem windowOf_periodAt (hnamed : Named context.env) {period : Nat}
    (hperiod : periodAt context arguments place default = some period) :
    windowOf context (Term.texts arguments)[place]? default = .ok period := by
  rw [Term.texts_eq_map, List.getElem?_map]
  rw [periodAt] at hperiod
  split at hperiod
  · next hterm =>
      injection hperiod with hperiod
      rw [hterm, ← hperiod]
      rfl
  · next token hterm =>
      injection hperiod with hperiod
      rw [hterm, Option.map_some, Term.print_numeral, token.windowOf_eq hnamed, hperiod]
  · next token hterm =>
      split at hperiod
      · next x hx =>
          injection hperiod with hperiod
          rw [hterm, Option.map_some, Term.print_name, token.windowOf_eq hx, hperiod]
      · exact nomatch hperiod
  · exact nomatch hperiod

theorem fillOf_fillAt {fill : α} (hfill : fillAt arguments 1 = some fill) :
    fillOf (Term.texts arguments) = fill := by
  rw [fillOf, Term.texts_eq_map, List.getElem?_map]
  rw [fillAt] at hfill
  split at hfill
  · next hterm =>
      injection hfill with hfill
      rw [hterm]
      exact hfill
  · next token hterm =>
      injection hfill with hfill
      rw [hterm, Option.map_some, Term.print_numeral, Option.bind_some, token.reads]
      exact hfill
  · exact nomatch hfill

end Arguments

section Called

variable {arguments : List Term} {value : Value α}

/-- A function of its source and a window length. -/
theorem windowCall_eq (hanswers : Answers context operand arguments) (hnamed : Named context.env)
    {builtin : Builtin}
    (hvalue : (do
      let xs ← sourceAt context (meanings context arguments) 0 none
      let period ← periodAt context arguments 1 14
      match windowFunction builtin period xs with
      | some (.ok ys) => some (.series ys)
      | _ => none) = some value) :
    (do
      match ← numericOf context operand ((Term.texts arguments)[0]?.getD []) with
      | none => pure none
      | some xs => windowCall context builtin xs (Term.texts arguments)) = .ok (some value) := by
  obtain ⟨xs, hxs, hvalue⟩ := Option.bind_eq_some_iff.1 hvalue
  obtain ⟨period, hperiod, hvalue⟩ := Option.bind_eq_some_iff.1 hvalue
  rw [hanswers.numericOf_argument hxs]
  change windowCall context builtin xs (Term.texts arguments) = _
  refine Outcome.bind_eq_ok.2 ⟨period, windowOf_periodAt hnamed hperiod, ?_⟩
  split at hvalue
  · next ys hys =>
      rw [hys]
      exact congrArg Except.ok hvalue
  · cases hvalue

/-- A function of two series. -/
theorem pairCall_eq (hanswers : Answers context operand arguments) {builtin : Builtin}
    (hvalue : (do
      let xs ← sourceAt context (meanings context arguments) 0 none
      let ys ← sourceAt context (meanings context arguments) 1 none
      pairFunction builtin xs ys) = some value) :
    (do
      match ← numericOf context operand ((Term.texts arguments)[0]?.getD []) with
      | none => pure none
      | some xs => pairCall context operand builtin xs (Term.texts arguments)) =
        .ok (some value) := by
  obtain ⟨xs, hxs, hvalue⟩ := Option.bind_eq_some_iff.1 hvalue
  obtain ⟨ys, hys, hvalue⟩ := Option.bind_eq_some_iff.1 hvalue
  rw [hanswers.numericOf_argument hxs]
  change pairCall context operand builtin xs (Term.texts arguments) = _
  rw [pairCall, hanswers.numericOf_argument hys]
  exact congrArg Except.ok hvalue

theorem absoluteCall_eq (hanswers : Answers context operand arguments)
    (hvalue : called context .absolute arguments (meanings context arguments) = some value) :
    callValue context operand .absolute (Term.texts arguments) = .ok (some value) := by
  obtain ⟨xs, hxs, hvalue⟩ := Option.bind_eq_some_iff.1 hvalue
  change sourceCall context operand .absolute (Term.texts arguments) = _
  rw [sourceCall, hanswers.numericOf_argument hxs, ← hvalue]
  rfl

theorem definedCall_eq (hanswers : Answers context operand arguments)
    (hvalue : called context .defined arguments (meanings context arguments) = some value) :
    callValue context operand .defined (Term.texts arguments) = .ok (some value) := by
  obtain ⟨xs, hxs, hvalue⟩ := Option.bind_eq_some_iff.1 hvalue
  obtain ⟨fill, hfill, hvalue⟩ := Option.bind_eq_some_iff.1 hvalue
  change sourceCall context operand .defined (Term.texts arguments) = _
  rw [sourceCall, hanswers.numericOf_argument hxs, ← hvalue, ← fillOf_fillAt hfill]
  rfl

theorem convergenceCall_eq (hanswers : Answers context operand arguments)
    (hnamed : Named context.env)
    (hvalue : called context .convergence arguments (meanings context arguments) = some value) :
    callValue context operand .convergence (Term.texts arguments) = .ok (some value) := by
  obtain ⟨xs, hxs, hvalue⟩ := Option.bind_eq_some_iff.1 hvalue
  obtain ⟨fast, hfast, hvalue⟩ := Option.bind_eq_some_iff.1 hvalue
  obtain ⟨slow, hslow, hvalue⟩ := Option.bind_eq_some_iff.1 hvalue
  obtain ⟨signal, hsignal, hvalue⟩ := Option.bind_eq_some_iff.1 hvalue
  rw [callValue, convergenceOf, hanswers.numericOf_close hxs, windowOf_periodAt hnamed hfast,
    windowOf_periodAt hnamed hslow, windowOf_periodAt hnamed hsignal, ← hvalue]
  rfl

theorem bandsCall_eq (hanswers : Answers context operand arguments) (hnamed : Named context.env)
    (hvalue : called context .bands arguments (meanings context arguments) = some value) :
    callValue context operand .bands (Term.texts arguments) = .ok (some value) := by
  obtain ⟨xs, hxs, hvalue⟩ := Option.bind_eq_some_iff.1 hvalue
  obtain ⟨period, hperiod, hvalue⟩ := Option.bind_eq_some_iff.1 hvalue
  rw [callValue, bandsOf, hanswers.numericOf_close hxs, windowOf_periodAt hnamed hperiod, ← hvalue]
  rfl

theorem averageRangeCall_eq (hnamed : Named context.env)
    (hvalue : called context .averageRange arguments (meanings context arguments) = some value) :
    callValue context operand .averageRange (Term.texts arguments) = .ok (some value) := by
  obtain ⟨high, hhigh, hvalue⟩ := Option.bind_eq_some_iff.1 hvalue
  obtain ⟨low, hlow, hvalue⟩ := Option.bind_eq_some_iff.1 hvalue
  obtain ⟨close, hclose, hvalue⟩ := Option.bind_eq_some_iff.1 hvalue
  obtain ⟨period, hperiod, hvalue⟩ := Option.bind_eq_some_iff.1 hvalue
  rw [callValue, averageRangeOf, namedSeries_sourceAt hhigh, namedSeries_sourceAt hlow,
    namedSeries_sourceAt hclose, windowOf_periodAt hnamed hperiod, ← hvalue]
  rfl

theorem stochasticCall_eq (hanswers : Answers context operand arguments)
    (hnamed : Named context.env)
    (hvalue : called context .stochastic arguments (meanings context arguments) = some value) :
    callValue context operand .stochastic (Term.texts arguments) = .ok (some value) := by
  obtain ⟨source, hsource, hvalue⟩ := Option.bind_eq_some_iff.1 hvalue
  have hlength : (Term.texts arguments).length = arguments.length := by
    rw [Term.texts_eq_map, List.length_map]
  rw [callValue, stochasticOf, hlength]
  dsimp only at hvalue ⊢
  split at hvalue
  · next hshort =>
      obtain ⟨high, hhigh, hvalue⟩ := Option.bind_eq_some_iff.1 hvalue
      obtain ⟨low, hlow, hvalue⟩ := Option.bind_eq_some_iff.1 hvalue
      obtain ⟨period, hperiod, hvalue⟩ := Option.bind_eq_some_iff.1 hvalue
      rw [if_pos hshort, if_pos hshort, if_pos hshort, hanswers.numericOf_close hsource,
        hanswers.numericOf_price (by decide) hhigh, hanswers.numericOf_price (by decide) hlow,
        windowOf_periodAt hnamed hperiod, ← hvalue]
      rfl
  · next hshort =>
      obtain ⟨high, hhigh, hvalue⟩ := Option.bind_eq_some_iff.1 hvalue
      obtain ⟨low, hlow, hvalue⟩ := Option.bind_eq_some_iff.1 hvalue
      obtain ⟨period, hperiod, hvalue⟩ := Option.bind_eq_some_iff.1 hvalue
      rw [if_neg hshort, if_neg hshort, if_neg hshort, hanswers.numericOf_close hsource,
        hanswers.numericOf_argument hhigh, hanswers.numericOf_argument hlow,
        windowOf_periodAt hnamed hperiod, ← hvalue]
      rfl

/-- A call gives what its function makes of its arguments. -/
theorem callValue_eq (hanswers : Answers context operand arguments) (hnamed : Named context.env)
    {builtin : Builtin}
    (hvalue : called context builtin arguments (meanings context arguments) = some value) :
    callValue context operand builtin (Term.texts arguments) = .ok (some value) := by
  cases builtin with
  | convergence => exact convergenceCall_eq hanswers hnamed hvalue
  | bands => exact bandsCall_eq hanswers hnamed hvalue
  | averageRange => exact averageRangeCall_eq hnamed hvalue
  | stochastic => exact stochasticCall_eq hanswers hnamed hvalue
  | absolute => exact absoluteCall_eq hanswers hvalue
  | defined => exact definedCall_eq hanswers hvalue
  | crossover => exact pairCall_eq hanswers hvalue
  | crossunder => exact pairCall_eq hanswers hvalue
  | larger => exact pairCall_eq hanswers hvalue
  | smaller => exact pairCall_eq hanswers hvalue
  | _ => exact windowCall_eq hanswers hnamed hvalue

end Called

/-! ## Chains of junctions -/

theorem grouped_of_le {floor level : Nat} (hlevel : floor ≤ level) (words : List Word) :
    grouped floor level words = words := if_neg (Nat.not_lt.2 hlevel)

theorem Term.exists_of_level {kind : Junction} {term : Term}
    (hlevel : term.level = (Mark.junction kind).level) :
    ∃ left right, term = .junction kind left right := by
  cases term with
  | junction other left right =>
      cases other <;> cases kind <;> first | exact ⟨left, right, rfl⟩ | exact nomatch hlevel
  | operation other left right => cases other <;> cases kind <;> exact nomatch hlevel
  | _ => cases kind <;> exact nomatch hlevel

theorem zipWith_apply_assoc (kind : Junction) (p q r : Flags) :
    List.zipWith kind.apply (List.zipWith kind.apply p q) r =
      List.zipWith kind.apply p (List.zipWith kind.apply q r) := by
  have hassoc (x y z : Bool) :
      kind.apply (kind.apply x y) z = kind.apply x (kind.apply y z) := by
    cases kind with
    | disjunction => exact Bool.or_assoc x y z
    | conjunction => exact Bool.and_assoc x y z
  induction p generalizing q r with
  | nil => rfl
  | cons x p ih =>
      cases q with
      | nil => rfl
      | cons y q =>
          cases r with
          | nil => rfl
          | cons z r => rw [List.zipWith_cons_cons, List.zipWith_cons_cons, List.zipWith_cons_cons,
              List.zipWith_cons_cons, hassoc, ih]

section Rotation

variable (kind : Junction) (first second third : Term)

/-- Turning a chain of junctions does not show in its text. -/
theorem words_rotate :
    (Term.junction kind first (.junction kind second third)).words =
      (Term.junction kind (.junction kind first second) third).words := by
  have hsame (left right : Term) : grouped (Mark.junction kind).level
      (Term.junction kind left right).level (Term.junction kind left right).words =
        (Term.junction kind left right).words := grouped_of_le (Nat.le_refl _) _
  rw [Term.words, hsame, Term.words, Term.words, hsame, Term.words, List.append_assoc]
  rfl

theorem meaning_rotate :
    meaning context (.junction kind first (.junction kind second third)) =
      meaning context (.junction kind (.junction kind first second) third) := by
  have htruth (flags : Flags) : (Value.flags flags : Value α).truth context.bars = some flags := rfl
  simp only [meaning, Option.bind_eq_bind, Option.bind_assoc, Option.bind_some, htruth,
    zipWith_apply_assoc]

end Rotation

/-- A chain of junctions has the text and the meaning of one whose left operand is no junction of
the same kind. -/
theorem exists_rotated (context : Context α) (kind : Junction) (left right : Term) :
    ∃ left' right' : Term, left'.level ≠ (Mark.junction kind).level ∧
      (Term.junction kind left' right').words = (Term.junction kind left right).words ∧
      meaning context (.junction kind left' right') =
        meaning context (.junction kind left right) := by
  by_cases hlevel : left.level = (Mark.junction kind).level
  · obtain ⟨first, second, rfl⟩ := Term.exists_of_level hlevel
    obtain ⟨left', right', hloose, hwords, hmeaning⟩ :=
      exists_rotated context kind first (.junction kind second right)
    exact ⟨left', right', hloose, hwords.trans (words_rotate kind first second right),
      hmeaning.trans (meaning_rotate kind first second right)⟩
  · exact ⟨left, right, hlevel, rfl, rfl⟩
termination_by sizeOf left

/-! ## Terms -/

/-- An evaluator finds the meaning of every term, alone or in brackets, whose text is shorter than a
bound; a name has no operands, so any bound will do for it. -/
structure Finds (context : Context α) (operand : Evaluator α) (bound : Nat) : Prop where
  alone : ∀ (term : Term) (value : Value α), term.print.length < bound →
    meaning context term = some value → operand term.print = .ok (some value)
  inBrackets : ∀ (term : Term) (value : Value α), (bracketed term.words).length < bound →
    meaning context term = some value → operand (bracketed term.words) = .ok (some value)
  name : ∀ (token : NameToken) (value : Value α), 0 < bound →
    context.env.value? token.string = some value → operand token.text = .ok (some value)

section Step

variable {bound floor : Nat} {words left right : List Word} {term : Term} {value : Value α}

theorem Finds.grouped (hfinds : Finds context operand bound)
    (hlength : (spell (grouped floor term.level term.words)).length < bound)
    (hvalue : meaning context term = some value) :
    operand (spell (grouped floor term.level term.words)) = .ok (some value) := by
  rw [Expr.grouped] at hlength ⊢
  by_cases hlevel : term.level < floor
  · rw [if_pos hlevel, spell_atom] at hlength ⊢
    exact hfinds.inBrackets term value hlength hvalue
  · rw [if_neg hlevel] at hlength ⊢
    exact hfinds.alone term value hlength hvalue

/-- The operands of an operator are shorter than the sentence. -/
theorem length_sides (hleft : left ≠ []) (hright : right ≠ []) {sign : Mark}
    (hlength : (spell (left ++ .mark sign :: right)).length ≤ bound) :
    (spell left).length < bound ∧ (spell right).length < bound :=
  ⟨Nat.lt_of_lt_of_le (length_spell_left hleft hright) hlength,
    Nat.lt_of_lt_of_le (length_spell_right hleft hright) hlength⟩

theorem Finds.answers (hfinds : Finds context operand bound) {builtin : Builtin}
    {arguments : List Term} (hlength : (Term.call builtin arguments).print.length ≤ bound) :
    Answers context operand arguments where
  argument term hterm value hvalue := by
    apply hfinds.alone term value _ hvalue
    have htext : term.print ∈ Term.texts arguments := by
      rw [Term.texts_eq_map]
      exact List.mem_map_of_mem hterm
    have hprint : (Term.call builtin arguments).print =
        callText builtin.name.toList (Term.texts arguments) := spell_atom _
    rw [hprint] at hlength
    exact Nat.lt_of_lt_of_le (length_lt_callText htext) hlength
  price name hname value hvalue := by
    have hnames : ∀ name ∈ ["close", "high", "low"],
        isIdentifier name.toList = true ∧ name.toList ∉ reservedWords := by decide
    obtain ⟨hidentifier, hunreserved⟩ := hnames name hname
    apply hfinds.name ⟨name.toList, hidentifier, hunreserved⟩ value
    · have hne := (Term.call builtin arguments).tight.spell_ne_nil
      exact Nat.lt_of_lt_of_le (List.length_pos_iff.2 hne) hlength
    · rw [NameToken.string, String.ofList_toList]
      exact hvalue

theorem firstOf_printOperation (hfinds : Finds context operand bound) {kind : Operation}
    {first second : Term} (hlength : (Term.operation kind first second).print.length ≤ bound)
    (hvalue : meaning context (.operation kind first second) = some value) :
    firstOf (Term.operation kind first second).print (constructs context operand) =
      .ok (some value) := by
  obtain ⟨x, hx, hvalue⟩ := Option.bind_eq_some_iff.1 hvalue
  obtain ⟨xs, hxs, hvalue⟩ := Option.bind_eq_some_iff.1 hvalue
  obtain ⟨y, hy, hvalue⟩ := Option.bind_eq_some_iff.1 hvalue
  obtain ⟨ys, hys, hvalue⟩ := Option.bind_eq_some_iff.1 hvalue
  have hleft := first.tight.grouped (Mark.operation kind).level
  have hright := second.tight.grouped ((Mark.operation kind).level + 1)
  obtain ⟨hshort, hshort'⟩ := length_sides hleft.nonempty hright.nonempty hlength
  have hread := firstOf_operation hleft hright (numericOf_eq (hfinds.grouped hshort hx) hxs)
    (numericOf_eq (hfinds.grouped hshort' hy) hys)
  rw [← hvalue]
  exact hread

theorem firstOf_printComparison (hfinds : Finds context operand bound) {kind : Comparison}
    {first second : Term} (hlength : (Term.comparison kind first second).print.length ≤ bound)
    (hvalue : meaning context (.comparison kind first second) = some value) :
    firstOf (Term.comparison kind first second).print (constructs context operand) =
      .ok (some value) := by
  obtain ⟨x, hx, hvalue⟩ := Option.bind_eq_some_iff.1 hvalue
  obtain ⟨y, hy, hvalue⟩ := Option.bind_eq_some_iff.1 hvalue
  have hleft := first.tight.grouped ((Mark.comparison kind).level + 1)
  have hright := second.tight.grouped ((Mark.comparison kind).level + 1)
  obtain ⟨hshort, hshort'⟩ := length_sides hleft.nonempty hright.nonempty hlength
  have hsplit : firstSplit (Mark.comparison kind).symbol (Term.comparison kind first second).print =
      some _ := hleft.firstSplit_eq_some hright nofun (Nat.lt_succ_self _)
  exact firstOf_comparison hleft hright
    (comparison_eq hsplit (hfinds.grouped hshort hx) (hfinds.grouped hshort' hy) hvalue)

theorem firstOf_printNegation (hfinds : Finds context operand bound)
    (hlength : (Term.negation term).print.length ≤ bound)
    (hvalue : meaning context (.negation term) = some value) :
    firstOf (Term.negation term).print (constructs context operand) = .ok (some value) := by
  obtain ⟨x, hx, hvalue⟩ := Option.bind_eq_some_iff.1 hvalue
  obtain ⟨flags, hflags, hvalue⟩ := Option.bind_eq_some_iff.1 hvalue
  have hinner := term.tight.grouped Mark.negation.level
  have hshort :
      (spell (Expr.grouped Mark.negation.level term.level term.words)).length < bound := by
    have hprint : (Term.negation term).print =
        ['n', 'o', 't'] ++ spellRest (Expr.grouped Mark.negation.level term.level term.words) := rfl
    rw [hprint, spellRest_eq_cons hinner.nonempty] at hlength
    simp only [List.length_append, List.length_cons] at hlength
    omega
  have hread := firstOf_negation hinner (truthOf_eq (hfinds.grouped hshort hx) hflags)
  rw [← hvalue]
  exact hread

theorem firstOf_printJunction (hfinds : Finds context operand bound) {kind : Junction}
    {first second : Term} (hlength : (Term.junction kind first second).print.length ≤ bound)
    (hvalue : meaning context (.junction kind first second) = some value) :
    firstOf (Term.junction kind first second).print (constructs context operand) =
      .ok (some value) := by
  obtain ⟨first', second', hloose, hwords, hmeaning⟩ := exists_rotated context kind first second
  rw [← hmeaning] at hvalue
  rw [Term.print, ← hwords] at hlength ⊢
  obtain ⟨x, hx, hvalue⟩ := Option.bind_eq_some_iff.1 hvalue
  obtain ⟨p, hp, hvalue⟩ := Option.bind_eq_some_iff.1 hvalue
  obtain ⟨y, hy, hvalue⟩ := Option.bind_eq_some_iff.1 hvalue
  obtain ⟨q, hq, hvalue⟩ := Option.bind_eq_some_iff.1 hvalue
  have hleft : Tight ((Mark.junction kind).level + 1)
      (Expr.grouped (Mark.junction kind).level first'.level first'.words) := by
    rw [Expr.grouped]
    split
    · exact .atom (proper_bracketed first'.tight.proper) _
    · next hfloor =>
        have hle := Nat.not_lt.1 hfloor
        exact first'.tight.mono (Nat.lt_of_le_of_ne hle fun heq => hloose heq.symm)
  have hright := second'.tight.grouped (Mark.junction kind).level
  obtain ⟨hshort, hshort'⟩ := length_sides hleft.nonempty hright.nonempty hlength
  have hread := firstOf_junction hleft hright (truthOf_eq (hfinds.grouped hshort hx) hp)
    (truthOf_eq (hfinds.grouped hshort' hy) hq)
  rw [← hvalue]
  exact hread

theorem firstOf_printChoice (hfinds : Finds context operand bound) {condition first second : Term}
    (hlength : (Term.choice condition first second).print.length ≤ bound)
    (hvalue : meaning context (.choice condition first second) = some value) :
    firstOf (Term.choice condition first second).print (constructs context operand) =
      .ok (some value) := by
  obtain ⟨c, hc, hvalue⟩ := Option.bind_eq_some_iff.1 hvalue
  obtain ⟨x, hx, hvalue⟩ := Option.bind_eq_some_iff.1 hvalue
  obtain ⟨y, hy, hvalue⟩ := Option.bind_eq_some_iff.1 hvalue
  obtain ⟨flags, hflags, hvalue⟩ := Option.bind_eq_some_iff.1 hvalue
  have hcondition := condition.tight.grouped 1
  have hfirst := first.tight.grouped 1
  have hsecond : Tight 0 second.words := second.tight.mono (Nat.zero_le _)
  have hbranches : Expr.grouped 1 first.level first.words ++ .mark .colon :: second.words ≠ [] := by
    intro hnil
    exact hfirst.nonempty (List.append_eq_nil_iff.1 hnil).1
  obtain ⟨hshort, hrest⟩ := length_sides hcondition.nonempty hbranches hlength
  obtain ⟨hshort', hshort''⟩ := length_sides hfirst.nonempty hsecond.nonempty (Nat.le_of_lt hrest)
  have hpick : pick context flags (some x) (some y) = .ok (some value) := by
    split at hvalue
    · next result hresult => rw [hresult, hvalue]
    · exact nomatch hvalue
  exact firstOf_choice hcondition hfirst hsecond (truthOf_eq (hfinds.grouped hshort hc) hflags)
    (hfinds.grouped hshort' hx) (hfinds.alone second y hshort'' hy) hpick

theorem firstOf_print (hnamed : Named context.env) (hfinds : Finds context operand bound)
    (hlength : term.print.length ≤ bound) (hvalue : meaning context term = some value) :
    firstOf term.print (constructs context operand) = .ok (some value) := by
  cases term with
  | numeral token =>
      rw [Term.print_numeral, firstOf_atom token.proper, token.firstOf_eq, ← hvalue]
      rfl
  | name token =>
      rw [Term.print_name, firstOf_atom token.proper]
      exact token.firstOf_eq hvalue
  | truth flag =>
      rw [Term.print, Term.words, spell_atom, firstOf_atom (proper_truth flag), firstOf_truth, ← hvalue]
      rfl
  | text token =>
      rw [Term.print, Term.words, spell_atom, firstOf_atom token.proper, token.firstOf_eq, ← hvalue]
      rfl
  | history token count =>
      rw [Term.print, Term.words, spell_atom, firstOf_atom (proper_history token count.digits)]
      exact firstOf_history token count hvalue
  | call builtin arguments =>
      have htexts := Term.isArgument_texts arguments
      have hcall := callValue_eq (hfinds.answers hlength) hnamed hvalue
      rw [Term.print, Term.words, spell_atom, firstOf_atom (proper_call builtin htexts)]
      exact firstOf_call builtin htexts hcall
  | operation kind left right => exact firstOf_printOperation hfinds hlength hvalue
  | comparison kind left right => exact firstOf_printComparison hfinds hlength hvalue
  | negation inner => exact firstOf_printNegation hfinds hlength hvalue
  | junction kind left right => exact firstOf_printJunction hfinds hlength hvalue
  | choice condition first second => exact firstOf_printChoice hfinds hlength hvalue

end Step

/-- Evaluation to a depth finds the meaning of every term whose text is shorter. -/
theorem finds_evaluateWithin (hnamed : Named context.env) (depth : Nat) :
    Finds context (evaluateWithin context depth) depth := by
  induction depth with
  | zero =>
      exact ⟨fun _ _ hlength => (nomatch hlength), fun _ _ hlength => (nomatch hlength),
        fun _ _ hlength => (nomatch hlength)⟩
  | succ depth ih =>
      constructor
      · intro term value hlength hvalue
        have hwords := term.tight
        have hread := firstOf_print hnamed ih (Nat.le_of_lt_succ hlength) hvalue
        rw [evaluateWithin, ← hread]
        exact step_eq_firstOf (isTrimmed_spell hwords.proper) hwords.spell_ne_nil
          term.isWrapped_print
      · intro term value hlength hvalue
        rw [bracketed, List.length_cons, List.length_append, List.length_singleton] at hlength
        rw [evaluateWithin, bracketed, step_bracketed term.tight.proper]
        apply ih.alone term value _ hvalue
        rw [Term.print]
        omega
      · intro token value _ hvalue
        have htrimmed : IsTrimmed token.text := token.proper.isTrimmed
        have hopen := isWrapped_of_forall token.bare
        rw [evaluateWithin, step_eq_firstOf htrimmed token.nonempty hopen,
          firstOf_atom token.proper]
        exact token.firstOf_eq hvalue

/-- A printed term that has a meaning evaluates to it. -/
theorem evaluate_print (context : Context α) (hnamed : Named context.env) (term : Term)
    (value : Value α) (hmeaning : meaning context term = some value) :
    evaluate context term.print = .ok value := by
  have htrim : trim term.print = term.print :=
    trim_of_isTrimmed (isTrimmed_spell term.tight.proper) term.tight.spell_ne_nil
  have hfinds := finds_evaluateWithin hnamed (term.print.length + 1)
  have hfound := hfinds.alone term value (Nat.lt_succ_self _) hmeaning
  rw [evaluate, evaluate?, htrim, hfound]
  rfl

/-- A history that goes back by a number of too many digits stops the evaluation. -/
theorem evaluate_tooLong (token : NameToken) {count : Chars}
    (hcount : ∀ c ∈ count, isDigit c = true) (hlong : Decimal.longestInteger < count.length)
    {xs : Series α} (hvalue : context.env.value? token.string = some (.series xs)) :
    evaluate context (token.text ++ '[' :: (count ++ [']'])) =
      .error (.integerTooLong count.length) := by
  have hproper := proper_history token hcount
  have htrimmed : IsTrimmed (token.text ++ '[' :: (count ++ [']'])) := hproper.isTrimmed
  have hne : count ≠ [] := by
    rintro rfl
    exact absurd hlong (Nat.not_lt_zero _)
  have hwrapped : isWrapped (token.text ++ '[' :: (count ++ [']'])) = false :=
    isWrapped_append_cons (.of_forall token.bare) token.nonempty _
  have hinteger : Decimal.integer count = .error (.tooLong count.length) := by
    rw [Decimal.integer_of_forall_isDigit hcount hne, if_pos hlong]
  have hhistory : history context (token.text ++ '[' :: (count ++ [']'])) =
      .error (.integerTooLong count.length) := by
    have hbound : context.env.value? (String.ofList token.text) = some (.series xs) := hvalue
    rw [history, history?_eq_some token.isWord token.nonempty hcount hne]
    dsimp only
    rw [hinteger, hbound]
    rfl
  rw [evaluate, evaluate?, trim_of_isTrimmed htrimmed hproper.1, evaluateWithin,
    step_eq_firstOf htrimmed hproper.1 hwrapped, firstOf_atom hproper, firstOf, hhistory]
  rfl

/-! ## Two bars -/

/-- Two bars with their close, and a number. -/
def twoBars : Context Exact where
  env := [("close", some (.series [.finite 1, .finite 2])), ("five", some (.number (.finite 5)))]
  bars := 2

def closeName : NameToken := ⟨"close".toList, by decide, by decide⟩

def fiveName : NameToken := ⟨"five".toList, by decide, by decide⟩

/-- The numeral of one digit. -/
def digitNumeral (digit : Fin 10) : NumeralToken :=
  ⟨[Char.ofNat (48 + digit)], ⟨false, digit, 0⟩, by decide +revert +kernel, by decide +revert⟩

/-- The close one bar earlier. -/
def lastClose : Term := .history closeName ⟨['1'], by decide, by decide, by decide⟩

/-- `not five - close - 1 > 2 or close == 3 ? nz(close[1], 7) : close * 9` -/
def choiceTerm : Term :=
  .choice
    (.junction .disjunction
      (.negation (.comparison .above
        (.operation .subtract (.operation .subtract (.name fiveName) (.name closeName))
          (.numeral (digitNumeral 1)))
        (.numeral (digitNumeral 2))))
      (.comparison .equals (.name closeName) (.numeral (digitNumeral 3))))
    (.call .defined [lastClose, .numeral (digitNumeral 7)])
    (.operation .multiply (.name closeName) (.numeral (digitNumeral 9)))

theorem evaluate_choiceTerm : Named twoBars.env ∧ ∃ value,
    meaning twoBars choiceTerm = some value ∧
      numbers? twoBars value = some [.finite 9, .finite 1] ∧
      evaluate twoBars choiceTerm.print = .ok value := by
  have hnamed : Named twoBars.env := by decide
  have hnumbers : (meaning twoBars choiceTerm).bind (numbers? twoBars) =
      some [.finite 9, .finite 1] := by decide +kernel
  obtain ⟨value, hvalue, hnumbers⟩ := Option.bind_eq_some_iff.1 hnumbers
  exact ⟨hnamed, value, hvalue, hnumbers, evaluate_print twoBars hnamed choiceTerm value hvalue⟩

/-- The number that stands in for undefined values is not evaluated like an operand: no function of
the values of both arguments gives the value of the call.  And a history does not go back by any
number of bars, however long. -/
theorem evaluate_print_limits :
    (¬ ∃ combine : Value Exact → Value Exact → Value Exact, ∀ (source fill : Term) (x y),
      evaluate twoBars source.print = .ok x → evaluate twoBars fill.print = .ok y →
        evaluate twoBars (Term.call .defined [source, fill]).print = .ok (combine x y)) ∧
    evaluate twoBars ("close".toList ++ '[' :: (List.replicate 4301 '9' ++ [']'])) =
      .error (.integerTooLong 4301) := by
  constructor
  · rintro ⟨combine, hcombine⟩
    have hsource : evaluate twoBars lastClose.print = .ok (.series [.undefined, .finite 1]) := rfl
    have hname : evaluate twoBars (Term.name fiveName).print = .ok (.number (.finite 5)) := rfl
    have hnumeral : evaluate twoBars (Term.numeral (digitNumeral 5)).print =
        .ok (.number (.finite 5)) := by
      have hfive : ((digitNumeral 5).numeral.value : Exact) = .finite 5 := by decide +kernel
      rw [← hfive]
      rfl
    have hsame := (hcombine _ _ _ _ hsource hname).trans (hcombine _ _ _ _ hsource hnumeral).symm
    have hdiffer : (evaluate twoBars (Term.call .defined [lastClose, .name fiveName]).print
          ).toOption.bind (numbers? twoBars) ≠
        (evaluate twoBars (Term.call .defined [lastClose, .numeral (digitNumeral 5)]).print
          ).toOption.bind (numbers? twoBars) := by decide +kernel
    rw [hsame] at hdiffer
    exact hdiffer rfl
  · have hdigits : ∀ c ∈ List.replicate 4301 '9', isDigit c = true := by
      intro c hc
      rw [(List.mem_replicate.1 hc).2]
      rfl
    have hlong : Decimal.longestInteger < (List.replicate 4301 '9').length := by
      rw [List.length_replicate]
      decide
    have hfault : evaluate twoBars
        (closeName.text ++ '[' :: (List.replicate 4301 '9' ++ [']'])) = _ :=
      evaluate_tooLong closeName hdigits hlong rfl
    rw [List.length_replicate] at hfault
    exact hfault

end Backtest.Expr
