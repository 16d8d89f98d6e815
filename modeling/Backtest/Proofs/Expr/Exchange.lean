import Backtest.Proofs.Expr.Binding
import Backtest.Proofs.Expr.OpenPlace

/-!
# Numerals and names in each other's place

A numeral in a text may be replaced by a name for its number.  Leaves that hold neither token have
the same value in both environments, the tokens themselves stand for the same number, and a leaf
around an open place has no value (`Exchanged.cases`); all else is made of exchanged parts
(`step_exchanged`).

The law needs the parts that are read on the way to the value (`Reads`): a numeral can also be read
within a longer one, such as `-5` or `1e-5`, or within a text, and what stands in for undefined
values has to be a numeral (`Ordinary`).
-/

namespace Backtest

open Text

/-- An environment in which a name stands for the number of a numeral, and all other names for what
they stand for in a first environment. -/
structure Environment.Stores {α : Type} [Arith α] (numeral : Expr.NumeralToken)
    (name : Expr.NameToken) (env changed : Environment α) : Prop where
  named : Expr.Named env
  renamed : Expr.Named changed
  value : changed.value? name.string = some (.number numeral.numeral.value)
  others : ∀ other, other ≠ name.string → env.value? other = changed.value? other

namespace Expr

open Template Environment

variable {α : Type} [Arith α] {env changed : Environment α} {bars : Nat}
variable {numeral : NumeralToken} {name : NameToken} {text other : Chars}

theorem stores_bind (hnamed : Named env) (numeral : NumeralToken) (name : NameToken) :
    Stores numeral name env (env.bind name.string (.number numeral.numeral.value)) where
  named := hnamed
  renamed := by
    apply named_put hnamed
    rw [NameToken.string, String.toList_ofList]
    exact name.identifier
  value := value?_bind_self _ _ _
  others _ hother := (value?_bind_of_ne _ (Ne.symm hother) _).symm

/-! ## Leaves -/

/-- The number that a text is read as is the numeral itself, and the numeral is no part of it. -/
def IsWhole (α : Type) [Arith α] (numeral text : Chars) : Prop :=
  ∀ x : α, Decimal.number? text = some x → text = numeral

theorem scriptNumeral?_of_number? (hread : (Decimal.number? text : Option α) = none) :
    Decimal.scriptNumeral? text = none := by
  cases hnumeral : Decimal.scriptNumeral? text with
  | none => rfl
  | some found => exact nomatch hread.symm.trans (Decimal.number?_of_scriptNumeral? hnumeral)

/-- A text around an open place is neither a name nor a number, whichever token is in it. -/
structure Unread (α : Type) [Arith α] (text other : Chars) : Prop where
  name : isIdentifier text = false ∧ isIdentifier other = false
  number : (Decimal.number? text : Option α) = none ∧ (Decimal.number? other : Option α) = none
  literal : textLiteral? text = none → textLiteral? other = none

/-- Exchanged texts are the same one without the name, or they are the two tokens, or they are read
as neither names nor numbers. -/
theorem Exchanged.cases (htext : Exchanged numeral.text name.text text other)
    (htrimmed : IsTrimmed other) (hwhole : text ≠ other → IsWhole α numeral.text text) :
    (text = other ∧ text ≠ name.text) ∨ (text = numeral.text ∧ other = name.text) ∨
      (text ≠ other ∧ Unread α text other) := by
  obtain ⟨template, hstands, rfl, rfl⟩ := htext
  have htokens : numeral.text ≠ name.text := by
    intro heq
    have hname := name.identifier
    rw [← heq, numeral.isIdentifier_eq_false] at hname
    exact nomatch hname
  by_cases hopen : none ∈ template
  · by_cases halone : template = [none]
    · rw [halone, fill_none, fill_none, fill_nil, fill_nil, List.append_nil, List.append_nil]
      exact .inr (.inl ⟨rfl, rfl⟩)
    · have hne := fill_ne_fill numeral.isToken name.isToken htokens hstands.beside hopen
      have hnumeral : (Decimal.number? (fill numeral.text template) : Option α) = none := by
        cases hread : (Decimal.number? (fill numeral.text template) : Option α) with
        | none => rfl
        | some x =>
            have hall := numeral.isToken.chars
            rw [← hwhole hne x hread] at hall
            exact absurd hall
              (not_forall_of_open hstands.beside hopen halone numeral.isToken.chars)
      refine .inr (.inr ⟨hne, ⟨?_, ?_⟩, ⟨hnumeral, ?_⟩, textLiteral?_fill name.isToken⟩)
      · exact isIdentifier_fill hstands.beside hopen halone numeral.isToken.chars
      · exact isIdentifier_fill hstands.beside hopen halone name.isToken.chars
      · cases hread : (Decimal.number? (fill name.text template) : Option α) with
        | none => rfl
        | some x =>
            obtain ⟨y, hy⟩ : ∃ y : α, Decimal.number? (fill numeral.text template) = some y :=
              number?_fill hstands.beside hopen halone htrimmed hread
            rw [hnumeral] at hy
            exact nomatch hy
  · obtain ⟨text, rfl⟩ := exists_eq_map_some hopen
    rw [fill_map_some, fill_map_some]
    exact .inl ⟨rfl, hstands.ne name.isToken.chars⟩

section Leaves

variable (hstores : Stores numeral name env changed)

include hstores

theorem Stores.lookup (hne : text ≠ name.text) :
    env.value? (String.ofList text) = changed.value? (String.ofList text) :=
  hstores.others _ fun heq => hne (String.ofList_injective heq)

theorem history_exchanged (htext : Exchanged numeral.text name.text text other) :
    history ⟨env, bars⟩ text = history ⟨changed, bars⟩ other := by
  obtain ⟨template, hstands, rfl, rfl⟩ := htext
  by_cases hopen : none ∈ template
  · have hnumeral : history ⟨env, bars⟩ (fill numeral.text template) = .ok none := by
      apply history_fill hstands.beside hopen numeral.isToken
      intro value hvalue
      rw [hstores.named.value?_eq_none numeral.isIdentifier_eq_false] at hvalue
      exact nomatch hvalue
    have hname : history ⟨changed, bars⟩ (fill name.text template) = .ok none := by
      apply history_fill hstands.beside hopen name.isToken
      intro value hvalue
      exact ⟨_, Option.some_inj.1 (hvalue.symm.trans hstores.value)⟩
    rw [hnumeral, hname]
  · obtain ⟨text, rfl⟩ := exists_eq_map_some hopen
    rw [fill_map_some, fill_map_some]
    refine history_congr fun found count hparts => Stores.lookup hstores ?_
    rw [eq_of_history? hparts, List.map_append, List.map_cons] at hstands
    exact (hstands.left (by decide)).ne name.isToken.chars

theorem atom_exchanged (htext : Exchanged numeral.text name.text text other)
    (htrimmed : IsTrimmed other) (hwhole : text ≠ other → IsWhole α numeral.text text)
    (hliteral : text ≠ other → textLiteral? text = none) :
    atom ⟨env, bars⟩ text = atom ⟨changed, bars⟩ other := by
  rcases htext.cases htrimmed hwhole with ⟨rfl, hne⟩ | ⟨rfl, rfl⟩ | ⟨hne, hunread⟩
  · exact atom_congr (Stores.lookup hstores hne)
  · rw [numeral.atom_eq, name.atom_eq]
    exact congrArg Except.ok hstores.value.symm
  · have hnone : textLiteral? text = none := hliteral hne
    rw [atom_eq_none hnone (scriptNumeral?_of_number? hunread.number.1) hunread.name.1,
      atom_eq_none (hunread.literal hnone) (scriptNumeral?_of_number? hunread.number.2)
        hunread.name.2]

theorem windowOf_exchanged (htext : Exchanged numeral.text name.text (trim text) (trim other))
    (hwhole : trim text ≠ trim other → IsWhole α numeral.text (trim text)) (default : Nat) :
    windowOf ⟨env, bars⟩ (some text) default = windowOf ⟨changed, bars⟩ (some other) default := by
  rcases htext.cases (isTrimmed_trim other) hwhole with
    ⟨heq, hne⟩ | ⟨hnumeral, hname⟩ | ⟨_, hunread⟩
  · rw [← windowOf_trim, ← windowOf_trim other, ← heq]
    apply windowOf_congr
    rw [trim_trim]
    exact Stores.lookup hstores hne
  · rw [← windowOf_trim, ← windowOf_trim other, hnumeral, hname,
      numeral.windowOf_eq hstores.named, name.windowOf_eq hstores.value]
  · rw [windowOf_default hstores.named hunread.name.1 hunread.number.1,
      windowOf_default hstores.renamed hunread.name.2 hunread.number.2]

end Leaves

/-! ## What is read -/

/-- A part that is read on the way to the value of a text, together with the part of another text in
its place. -/
inductive Opens (context : Context α) (text other : Chars) : Chars → Chars → Prop where
  | brackets (hwrapped : isWrapped (trim text) = true) :
      Opens context text other ((trim text).drop 1).dropLast ((trim other).drop 1).dropLast
  | operand {earlier later : List Form} {form : Form} {part twin : Chars}
      (hunwrapped : isWrapped (trim text) = false) (hform : Form.all = earlier ++ form :: later)
      (htried : ∀ tried ∈ earlier,
        tried.attempt context (evaluate? context) (trim text) = .ok none)
      (hpart : (part, twin) ∈ (form.operands (trim text)).zip (form.operands (trim other))) :
      Opens context text other part twin
  | argument {call changed : Call} {builtin : Builtin} {part twin : Chars}
      (hunwrapped : isWrapped (trim text) = false)
      (htried : ∀ tried ∈ Form.all,
        tried.attempt context (evaluate? context) (trim text) = .ok none)
      (hcall : call? (trim text) = some call) (htwin : call? (trim other) = some changed)
      (hbuiltin : Builtin.ofName? call.name = some builtin)
      (hpart : (part, twin) ∈ call.arguments.zip changed.arguments) :
      Opens context text other part twin

/-- A part that is read at any depth. -/
inductive Reads (context : Context α) : Chars → Chars → Chars → Chars → Prop where
  | whole (text other : Chars) : Reads context text other text other
  | inside {text other inner twin part changed : Chars}
      (hopens : Opens context text other inner twin)
      (hreads : Reads context inner twin part changed) : Reads context text other part changed

/-- The parts that may be read one level down, with those in their places. -/
def opened (text other : Chars) : List (Chars × Chars) :=
  if isWrapped (trim text) then
    [(((trim text).drop 1).dropLast, ((trim other).drop 1).dropLast)]
  else
    (Form.all.flatMap fun form => (form.operands (trim text)).zip (form.operands (trim other))) ++
      match call? (trim text), call? (trim other) with
      | some call, some changed => call.arguments.zip changed.arguments
      | _, _ => []

theorem mem_opened_of_opens {context : Context α} {part twin : Chars}
    (hopens : Opens context text other part twin) : (part, twin) ∈ opened text other := by
  rw [opened]
  cases hopens with
  | brackets hwrapped =>
      rw [if_pos hwrapped]
      exact List.mem_cons_self
  | operand hunwrapped hform _ hpart =>
      rw [hunwrapped, if_neg Bool.false_ne_true]
      refine List.mem_append_left _ (List.mem_flatMap.2 ⟨_, ?_, hpart⟩)
      rw [hform]
      exact List.mem_append_right _ List.mem_cons_self
  | argument hunwrapped _ hcall htwin _ hpart =>
      rw [hunwrapped, if_neg Bool.false_ne_true, hcall, htwin]
      exact List.mem_append_right _ hpart

/-- A list that is closed under reading holds all parts that are read. -/
theorem Reads.mem {context : Context α} {part twin : Chars} {pairs : List (Chars × Chars)}
    (hreads : Reads context text other part twin) (hwhole : (text, other) ∈ pairs)
    (hclosed : ∀ pair ∈ pairs, ∀ below ∈ opened pair.1 pair.2, below ∈ pairs) :
    (part, twin) ∈ pairs := by
  induction hreads with
  | whole text other => exact hwhole
  | inside hopens _ ih => exact ih (hclosed _ hwhole _ (mem_opened_of_opens hopens))

/-- A value that is a text. -/
def isTextValue : Outcome (Option (Value α)) → Bool
  | .ok (some (.text _)) => true
  | _ => false

/-- A part that holds a numeral is not read as a text, is no longer number, and does not have the
numeral where it stands in for undefined values. -/
structure Ordinary (context : Context α) (numeral part : Chars) : Prop where
  untext : isTextValue (evaluate? context part) = false
  whole : IsWhole α numeral (trim part)
  unfilled : ∀ call ∈ call? (trim part), Builtin.ofName? call.name = some .defined →
    call.arguments[1]? ≠ some numeral

theorem isWhole_iff {numeral : Chars} : IsWhole α numeral text ↔
    (Decimal.number? text : Option α).isNone ∨ text = numeral := by
  rw [IsWhole]
  cases (Decimal.number? text : Option α) <;> simp

theorem ordinary_iff {context : Context α} {numeral part : Chars} :
    Ordinary context numeral part ↔ isTextValue (evaluate? context part) = false ∧
      ((Decimal.number? (trim part) : Option α).isNone ∨ trim part = numeral) ∧
      ∀ call ∈ call? (trim part), Builtin.ofName? call.name = some .defined →
        call.arguments[1]? ≠ some numeral := by
  rw [← isWhole_iff]
  exact ⟨fun ⟨huntext, hwhole, hunfilled⟩ => ⟨huntext, hwhole, hunfilled⟩,
    fun ⟨huntext, hwhole, hunfilled⟩ => ⟨huntext, hwhole, hunfilled⟩⟩

instance (context : Context α) (numeral part : Chars) : Decidable (Ordinary context numeral part) :=
  decidable_of_iff' _ ordinary_iff

section Step

variable {operand second : Evaluator α}

omit [Arith α] in
theorem forall₂_of_zip {ι κ : Type} {R S : ι → κ → Prop} {xs : List ι} {ys : List κ}
    (hall : List.Forall₂ R xs ys) (hpairs : ∀ x y, (x, y) ∈ xs.zip ys → R x y → S x y) :
    List.Forall₂ S xs ys := by
  obtain ⟨hlength, hrel⟩ := List.forall₂_iff_zip.1 hall
  exact List.forall₂_iff_zip.2 ⟨hlength, fun hmem => hpairs _ _ hmem (hrel hmem)⟩

/-- What stands in for undefined values is the same number, if it is not the numeral itself. -/
theorem fillOf_exchanged {arguments others : List Chars}
    (harguments : List.Forall₂ (Exchanged numeral.text name.text) arguments others)
    (htrimmed : ∀ other ∈ others, trim other = other)
    (hwhole : ∀ part twin, (part, twin) ∈ arguments.zip others → part ≠ twin →
      IsWhole α numeral.text part)
    (hunfilled : arguments[1]? ≠ some numeral.text) :
    (fillOf arguments : α) = fillOf others := by
  have hrel := rel_getElem? harguments 1
  match hleft : arguments[1]?, hright : others[1]?, hrel with
  | none, none, _ => rw [fillOf, fillOf, hleft, hright]
  | some part, some twin, .some hpart =>
      have htwin : IsTrimmed twin :=
        htrimmed twin (List.mem_of_getElem? hright) ▸ isTrimmed_trim twin
      have hmem : (part, twin) ∈ arguments.zip others :=
        List.mem_of_getElem? (List.getElem?_zip_eq_some.2 ⟨hleft, hright⟩)
      rcases hpart.cases htwin (hwhole part twin hmem) with ⟨rfl, _⟩ | ⟨rfl, _⟩ | ⟨_, hunread⟩
      · rw [fillOf, fillOf, hleft, hright]
      · exact absurd hleft hunfilled
      · rw [fillOf, fillOf, hleft, hright, Option.bind_some, Option.bind_some,
          scriptNumeral?_of_number? hunread.number.1, scriptNumeral?_of_number? hunread.number.2]

/-- A call has the same value if its arguments have. -/
theorem callOf_exchanged (hstores : Stores numeral name env changed)
    (htext : Exchanged numeral.text name.text text other)
    (hparts : ∀ call changed builtin, call? text = some call → call? other = some changed →
      Builtin.ofName? call.name = some builtin →
        ∀ part twin, (part, twin) ∈ call.arguments.zip changed.arguments →
          Exchanged numeral.text name.text part twin → operand part = second twin ∧
            (part ≠ twin → IsWhole α numeral.text (trim part)))
    (hunfilled : text ≠ other → ∀ call, call? text = some call →
      Builtin.ofName? call.name = some .defined → call.arguments[1]? ≠ some numeral.text)
    (hnothing : operand [] = second [])
    (hprices : ∀ name ∈ Scope.prices,
      operand name.toList = second name.toList ∧ env.value? name = changed.value? name) :
    callOf ⟨env, bars⟩ operand text = callOf ⟨changed, bars⟩ second other := by
  apply callOf_congr
  have hcall := htext.call? numeral.isToken name.isToken
  match hleft : call? text, hright : call? other, hcall with
  | none, none, _ => exact .none
  | some call, some twin, .some ⟨hname, harguments⟩ =>
      refine .some ⟨hname, fun builtin hbuiltin => ?_⟩
      have hpairs := hparts call twin builtin hleft hright hbuiltin
      have hwhole (part other : Chars) (hmem : (part, other) ∈ call.arguments.zip twin.arguments)
          (hne : part ≠ other) : IsWhole α numeral.text part := by
        rw [← trim_of_mem_call hleft (List.of_mem_zip hmem).1]
        exact (hpairs part other hmem ((List.forall₂_iff_zip.1 harguments).2 hmem)).2 hne
      refine ⟨⟨?operands, ?windows, hnothing, fun name hname => (hprices name hname).1,
        fun name hname => (hprices name hname).2⟩, fun hdefined => ?fill⟩
      case operands =>
        exact forall₂_of_zip harguments fun part twin hmem hexchanged =>
          (hpairs part twin hmem hexchanged).1
      case windows =>
        refine forall₂_of_zip harguments fun part other hmem hexchanged => ?_
        exact windowOf_exchanged hstores (hexchanged.trim numeral.isToken name.isToken)
          fun hne => (hpairs part other hmem hexchanged).2 fun heq => hne (congrArg trim heq)
      case fill =>
        by_cases hsame : text = other
        · rw [hsame, hright] at hleft
          injection hleft with hleft
          rw [hleft]
        · exact fillOf_exchanged harguments (fun part hpart => trim_of_mem_call hright hpart) hwhole
            (hunfilled hsame call hleft (hdefined ▸ hbuiltin))

/-- Exchanged texts without operators have the same value. -/
theorem leaves_exchanged (hstores : Stores numeral name env changed)
    (htext : Exchanged numeral.text name.text text other) (htrimmed : IsTrimmed other)
    (hwhole : text ≠ other → IsWhole α numeral.text text)
    (huntext : text ≠ other → isTextValue (firstOf text
      [history ⟨env, bars⟩, callOf ⟨env, bars⟩ operand, atom ⟨env, bars⟩]) = false)
    (hcall : callOf ⟨env, bars⟩ operand text = callOf ⟨changed, bars⟩ second other) :
    firstOf text [history ⟨env, bars⟩, callOf ⟨env, bars⟩ operand, atom ⟨env, bars⟩] =
      firstOf other [history ⟨changed, bars⟩, callOf ⟨changed, bars⟩ second,
        atom ⟨changed, bars⟩] := by
  have hliteral : text ≠ other → textLiteral? text = none := by
    intro hne
    cases hliteral : textLiteral? text with
    | none => rfl
    | some content =>
        have hvalue := huntext hne
        rw [firstOf_textLiteral hliteral] at hvalue
        exact nomatch hvalue
  exact firstOf_congr (.cons (history_exchanged hstores htext) (.cons hcall
    (.cons (atom_exchanged hstores htext htrimmed hwhole hliteral) .nil)))

/-- One level of evaluation gives exchanged texts the same value if it does so for the parts that it
reads. -/
theorem step_exchanged (hstores : Stores numeral name env changed)
    (htext : Exchanged numeral.text name.text text other)
    (hwithin : ∀ part, Part part (trim text) → operand part = evaluate? ⟨env, bars⟩ part)
    (hparts : ∀ part twin, Exchanged numeral.text name.text part twin →
      Opens ⟨env, bars⟩ text other part twin →
        operand part = second twin ∧ (part ≠ twin → IsWhole α numeral.text (trim part)))
    (hordinary : text ≠ other → Ordinary ⟨env, bars⟩ numeral.text text)
    (hvalue : step ⟨env, bars⟩ operand text = evaluate? ⟨env, bars⟩ text)
    (hnothing : operand [] = second [])
    (hprices : ∀ name ∈ Scope.prices,
      operand name.toList = second name.toList ∧ env.value? name = changed.value? name) :
    step ⟨env, bars⟩ operand text = step ⟨changed, bars⟩ second other := by
  have htrim := htext.trim numeral.isToken name.isToken
  have hempty := htrim.isEmpty_eq numeral.isToken name.isToken
  have hwrapped := htrim.isWrapped_eq numeral.isToken name.isToken
  rw [step] at hvalue
  rw [step, step, ← hempty, ← hwrapped]
  split
  · rfl
  · split
    · next hblank hwrap =>
        exact (hparts _ _ (htrim.inner numeral.isToken hwrap) (.brackets hwrap)).1
    · next hblank hopen =>
        rw [Bool.not_eq_true] at hopen
        rw [constructs_eq_forms, constructs_eq_forms]
        have hattempt (form : Form) : form.attempt ⟨env, bars⟩ operand (trim text) =
            form.attempt ⟨env, bars⟩ (evaluate? ⟨env, bars⟩) (trim text) :=
          form.attempt_congr (List.forall₂_same.2 fun part hpart =>
            hwithin part (Form.part_of_mem_operands hpart))
        refine firstOf_map_append_congr (fun earlier form later hform htried => ?forms)
          fun htried => ?rest
        case forms =>
          have hmem : form ∈ Form.all := hform ▸ List.mem_append_right _ List.mem_cons_self
          have hoperands := htrim.operands numeral.isToken name.isToken hmem
          refine form.attempt_congr (forall₂_of_zip hoperands fun part twin hpart hexchanged =>
            (hparts part twin hexchanged ?_).1)
          exact .operand hopen hform (fun tried hmem => hattempt tried ▸ htried tried hmem) hpart
        case rest =>
          have hne : trim text ≠ trim other → text ≠ other := mt (congrArg trim)
          have huntext : trim text ≠ trim other → isTextValue (firstOf (trim text)
              [history ⟨env, bars⟩, callOf ⟨env, bars⟩ operand, atom ⟨env, bars⟩]) = false := by
            intro htrims
            rw [if_neg hblank, hopen, if_neg Bool.false_ne_true, constructs_eq_forms,
              firstOf_append (List.forall_mem_map.2 htried)] at hvalue
            rw [hvalue]
            exact (hordinary (hne htrims)).untext
          refine leaves_exchanged hstores htrim (isTrimmed_trim other)
            (fun htrims => (hordinary (hne htrims)).whole) huntext ?_
          refine callOf_exchanged hstores htrim
            (fun call twin builtin hcall htwin hbuiltin part other hmem hexchanged => ?_)
            (fun htrims => (hordinary (hne htrims)).unfilled) hnothing hprices
          exact hparts part other hexchanged (.argument hopen
            (fun tried hmem => hattempt tried ▸ htried tried hmem) hcall htwin hbuiltin hmem)

end Step

/-! ## Evaluation -/

theorem Opens.shorter {context : Context α} {part twin : Chars}
    (hopens : Opens context text other part twin) (htext : trim text ≠ [])
    (hother : trim other ≠ []) :
    part.length < (trim text).length ∧ twin.length < (trim other).length := by
  cases hopens with
  | brackets hwrapped =>
      have hinner {text : Chars} (htext : text ≠ []) :
          (text.drop 1).dropLast.length < text.length := by
        have hpositive := List.length_pos_iff.2 htext
        rw [List.length_dropLast, List.length_drop]
        omega
      exact ⟨hinner htext, hinner hother⟩
  | operand _ _ _ hpart =>
      obtain ⟨hleft, hright⟩ := List.of_mem_zip hpart
      exact ⟨(Form.part_of_mem_operands hleft).shorter, (Form.part_of_mem_operands hright).shorter⟩
  | argument _ _ hcall htwin _ hpart =>
      obtain ⟨hleft, hright⟩ := List.of_mem_zip hpart
      exact ⟨(part_of_mem_call hcall hleft).shorter, (part_of_mem_call htwin hright).shorter⟩

/-- Exchanged texts have the same value where the parts that are read are ordinary. -/
theorem evaluateWithin_exchanged (hstores : Stores numeral name env changed)
    (hprice : name.string ∉ Scope.prices)
    (htext : Exchanged numeral.text name.text text other)
    (hread : ∀ part twin, Reads ⟨env, bars⟩ text other part twin → part ≠ twin →
      Ordinary ⟨env, bars⟩ numeral.text part)
    {depth bound : Nat} (hdepth : (trim text).length < depth)
    (hbound : (trim other).length < bound) :
    evaluateWithin ⟨env, bars⟩ depth text = evaluateWithin ⟨changed, bars⟩ bound other := by
  induction depth generalizing bound text other with
  | zero => exact absurd hdepth (Nat.not_lt_zero _)
  | succ depth ih =>
      have htrim := htext.trim numeral.isToken name.isToken
      have hempty := htrim.isEmpty_eq numeral.isToken name.isToken
      by_cases hblank : trim text = []
      · rw [hblank, List.isEmpty_nil] at hempty
        have hother : trim other = [] := List.isEmpty_iff.1 hempty.symm
        cases bound with
        | zero => exact absurd hbound (Nat.not_lt_zero _)
        | succ bound =>
            rw [evaluateWithin, evaluateWithin, step_of_blank hblank, step_of_blank hother]
      · have hother : trim other ≠ [] := by
          intro hother
          rw [hother, List.isEmpty_nil] at hempty
          exact hblank (List.isEmpty_iff.1 hempty)
        have hpositive := List.length_pos_iff.2 hblank
        have hpositive' := List.length_pos_iff.2 hother
        obtain ⟨deep, rfl⟩ : ∃ deep, depth = deep + 1 := ⟨depth - 1, by omega⟩
        obtain ⟨high, rfl⟩ : ∃ high, bound = high + 1 + 1 := ⟨bound - 2, by omega⟩
        refine step_exchanged hstores htext (fun part hpart => ?within)
          (fun part twin hpart hopens =>
            ⟨?parts, fun hne => (hread part twin (.inside hopens (.whole part twin)) hne).whole⟩)
          (hread text other (.whole text other)) (evaluateWithin_eq _ hdepth)
          (step_nil.trans step_nil.symm) fun found hfound => ?prices
        case within =>
          have hshort := length_trim_le part
          have hshorter := hpart.shorter
          exact evaluateWithin_eq _ (by omega)
        case parts =>
          obtain ⟨hleft, hright⟩ := hopens.shorter hblank hother
          have hshort := length_trim_le part
          have hshort' := length_trim_le twin
          exact ih hpart (fun inner next hreads => hread inner next (.inside hopens hreads))
            (by omega) (by omega)
        case prices =>
          have hvalue : env.value? found = changed.value? found :=
            hstores.others found fun heq => hprice (heq ▸ hfound)
          exact ⟨step_price_congr hfound hvalue, hvalue⟩

/-- **Numerals and names are interchangeable.**  A numeral that is a whole operand or a whole
argument can be replaced by a name for its number.  It stands by itself; on the way to the value it is
read neither within a text nor within a longer number, and it does not stand in for undefined
values. -/
theorem evaluate?_exchange {front back : Chars} (hnamed : Named env)
    (hprice : name.string ∉ Scope.prices) (halone : StandsAlone front back)
    (hfresh : name.text ∉ runs (front ++ (numeral.text ++ back)))
    (hread : ∀ part twin, Reads ⟨env, bars⟩ (front ++ (numeral.text ++ back))
      (front ++ (name.text ++ back)) part twin → part ≠ twin →
        Ordinary ⟨env, bars⟩ numeral.text part) :
    evaluate? ⟨env.bind name.string (.number numeral.numeral.value), bars⟩
        (front ++ (name.text ++ back)) =
      evaluate? ⟨env, bars⟩ (front ++ (numeral.text ++ back)) := by
  have htext : Exchanged numeral.text name.text (front ++ (numeral.text ++ back))
      (front ++ (name.text ++ back)) := by
    refine ⟨_, halone.stands name.nonempty hfresh, ?_, ?_⟩
    · rw [fill_append, fill_none, fill_map_some, fill_map_some]
    · rw [fill_append, fill_none, fill_map_some, fill_map_some]
  exact (evaluateWithin_exchanged (stores_bind hnamed numeral name) hprice htext hread
    (Nat.lt_succ_self _) (Nat.lt_succ_self _)).symm

/-- The numbers of a text over two bars. -/
def numbersIn (env : Environment Exact) (text : Chars) : Option (List Exact) :=
  (evaluate? ⟨env, 2⟩ text).toOption.join.bind (numbers? ⟨env, 2⟩)

def spanName : NameToken := ⟨"span".toList, by decide, by decide⟩

/-- What is read of an average whose window length is a numeral or a name. -/
def averageParts : List (Chars × Chars) :=
  [("ta.sma(close, 2)".toList, "ta.sma(close, span)".toList), ("close".toList, "close".toList),
    ("2".toList, "span".toList)]

theorem evaluate?_exchange_average :
    numbersIn (twoBars.env.bind spanName.string (.number (digitNumeral 2).numeral.value))
        ("ta.sma(close, ".toList ++ (spanName.text ++ [')'])) =
      some [.undefined, .finite (3 / 2)] := by
  have hnumeral : numbersIn twoBars.env
      ("ta.sma(close, ".toList ++ ((digitNumeral 2).text ++ [')'])) =
        some [.undefined, .finite (3 / 2)] := by decide +kernel
  have hordinary : ∀ pair ∈ averageParts, pair.1 ≠ pair.2 →
      Ordinary ⟨twoBars.env, 2⟩ (digitNumeral 2).text pair.1 := by decide +kernel
  have hclosed : ∀ pair ∈ averageParts, ∀ below ∈ opened pair.1 pair.2, below ∈ averageParts := by
    decide +kernel
  have hwhole : ("ta.sma(close, ".toList ++ ((digitNumeral 2).text ++ [')']),
      "ta.sma(close, ".toList ++ (spanName.text ++ [')'])) ∈ averageParts := by decide +kernel
  have halone : StandsAlone "ta.sma(close, ".toList [')'] := by
    have hblank : "ta.sma(close, ".toList.getLast? = some ' ' := by decide
    refine ⟨fun c hc => ?_, fun c hc => ?_, by decide⟩
    · obtain rfl := Option.some_inj.1 (hblank.symm.trans hc)
      decide
    · obtain rfl := Option.some_inj.1 hc
      decide
  rw [numbersIn, evaluate?_exchange (by decide) (by decide) halone (by decide +kernel)
    fun part twin hreads hne => hordinary _ (hreads.mem hwhole hclosed) hne]
  exact hnumeral

/-- Where a name does not do for a numeral: it stands in for no undefined values; `true` and `not`
are words of their own; a numeral that is bound itself is looked up; and a new `close` gives a value
to what has none without the prices. -/
theorem evaluate?_exchange_limits :
    (numbersIn twoBars.env "nz(close[1], 5)".toList = some [.finite 5, .finite 1] ∧
      numbersIn (twoBars.env.bind "span" (.number (.finite 5))) "nz(close[1], span)".toList =
        some [.finite 0, .finite 1]) ∧
    (numbersIn twoBars.env "math.max(close, 5)".toList = some [.finite 5, .finite 5] ∧
      numbersIn (twoBars.env.bind "true" (.number (.finite 5))) "math.max(close, true)".toList =
        none) ∧
    (numbersIn twoBars.env "5 -1 > 4".toList = some [.finite 0, .finite 0] ∧
      numbersIn (twoBars.env.bind "not" (.number (.finite 5))) "not -1 > 4".toList =
        some [.finite 1, .finite 1]) ∧
    (numbersIn (twoBars.env.bind "2" (.number (.finite 1))) "ta.sma(close, 2)".toList =
        some [.finite 1, .finite 2] ∧
      numbersIn ((twoBars.env.bind "2" (.number (.finite 1))).bind "span" (.number (.finite 2)))
        "ta.sma(close, span)".toList = some [.undefined, .finite (3 / 2)]) ∧
    (numbersIn [] "(5 < 4) == ('a' == ta.macd() == 'b')".toList = some [.finite 0, .finite 0] ∧
      numbersIn (Environment.bind [] "close" (.number (.finite 5)))
        "(close < 4) == ('a' == ta.macd() == 'b')".toList = some [.finite 1, .finite 1]) := by
  decide +kernel

end Expr

end Backtest
