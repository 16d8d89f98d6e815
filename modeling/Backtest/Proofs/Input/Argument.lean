import Backtest.Input.Param
import Backtest.Proofs.Expr.Call
import Backtest.Proofs.Record

/-!
# One argument of a declaration

The arguments of a declaration are told apart by the commas outside quotes and brackets.  So an
argument can be exchanged for another one without a change to the arguments before and behind it
(`arguments_append`).  If both give the default, then the parameter changes its default and no other
field (`ofDeclaration_exchange`).
-/

namespace Backtest.Input

open Text Backtest.Expr

/-! ## Arguments before and behind -/

/-- The arguments that end within a text, the nesting behind the text, and the open argument, the
latest character first. -/
def passed (state : Nesting) (before : Chars) : Chars → List Chars × Nesting × Chars
  | [] => ([], state, before)
  | c :: rest =>
      let next := state.step c
      if next.2 && c == ',' then
        let later := passed next.1 [] rest
        (trim before.reverse :: later.1, later.2)
      else passed next.1 (c :: before) rest

theorem argumentsFrom_append (state : Nesting) (before front rest : Chars) :
    argumentsFrom state before (front ++ rest) = (passed state before front).1 ++
      argumentsFrom (passed state before front).2.1 (passed state before front).2.2 rest := by
  induction front generalizing state before with
  | nil => rfl
  | cons c front ih =>
      rw [List.cons_append, argumentsFrom, passed]
      dsimp only
      split
      · rw [ih, List.cons_append]
      · exact ih _ _

/-- A text ends with a comma outside quotes and brackets, or is empty: all arguments in it have
ended. -/
def Closes (front : Chars) : Prop := (passed Nesting.start [] front).2 = (Nesting.start, [])

instance (front : Chars) : Decidable (Closes front) := inferInstanceAs (Decidable (_ = _))

/-- The end of an argument is the end of the text or a comma. -/
def EndsArgument (back : Chars) : Prop := ∀ c, back.head? = some c → c = ','

/-- The arguments behind the end of an argument. -/
def laterArguments (back : Chars) : List Chars := arguments back.tail

/-- The arguments around an argument do not depend on it. -/
theorem arguments_append {front part back : Chars} (hfront : Closes front)
    (hpart : Outside (· ≠ ',') part) (hne : trim part ≠ []) (hback : EndsArgument back) :
    arguments (front ++ (part ++ back)) =
      (passed Nesting.start [] front).1 ++ trim part :: laterArguments back := by
  have hscan : argumentsFrom Nesting.start [] (part ++ back) =
      argumentsFrom Nesting.start part.reverse back := by
    have houtside := scans_argumentsFrom.outside hpart (Int.le_refl 0) (fun _ c hc _ _ => by
      rw [List.head?_cons, beq_eq_false_iff_ne]
      intro heq
      injection heq with heq
      exact hc heq) [] back
    rw [List.append_nil] at houtside
    exact houtside
  rw [arguments, argumentsFrom_append, hfront, hscan]
  cases back with
  | nil =>
      rw [argumentsFrom, List.reverse_reverse, List.isEmpty_eq_false_iff.2 hne,
        if_neg Bool.false_ne_true]
      rfl
  | cons c rest =>
      rw [hback c rfl]
      change _ ++ trim part.reverse.reverse :: argumentsFrom Nesting.start [] rest = _
      rw [List.reverse_reverse]
      rfl

/-! ## Records of arguments -/

/-- Gives each name that is not there yet the value beside it. -/
def fill (record : Record Chars) (entries : List (String × Chars)) : Record Chars :=
  entries.foldl
    (fun found entry => if found.has entry.1 then found else found.put entry.1 entry.2) record

/-- The arguments of a declaration by key, from their texts. -/
def recordOf (parts : List Chars) : Record Chars :=
  fill (Record.ofEntries (parts.filterMap keyword?))
    (positionalKeys.zip (parts.filter fun part => (keyword? part).isNone))

theorem argumentRecord_eq (text : Chars) : argumentRecord text = recordOf (arguments text) := rfl

/-- Two records that give a name two values and agree on all other names. -/
structure Exchanged (name : String) (old new : Chars) (left right : Record Chars) : Prop where
  old : left.get? name = some old
  new : right.get? name = some new
  others : ∀ other, other ≠ name → left.get? other = right.get? other

namespace Exchanged

variable {name : String} {old new : Chars} {left right : Record Chars}

theorem of_put (record : Record Chars) (name : String) (old new : Chars) :
    Exchanged name old new (record.put name old) (record.put name new) := by
  refine ⟨by rw [Record.get?_put, if_pos rfl], by rw [Record.get?_put, if_pos rfl], ?_⟩
  intro other hother
  rw [Record.get?_put, Record.get?_put, if_neg (Ne.symm hother), if_neg (Ne.symm hother)]

/-- Another name is put into both records. -/
theorem put (hexchanged : Exchanged name old new left right) {other : String}
    (hother : other ≠ name) (value : Chars) :
    Exchanged name old new (left.put other value) (right.put other value) := by
  refine ⟨?_, ?_, fun third hthird => ?_⟩
  · rw [Record.get?_put, if_neg hother, hexchanged.old]
  · rw [Record.get?_put, if_neg hother, hexchanged.new]
  · rw [Record.get?_put, Record.get?_put, hexchanged.others third hthird]

theorem overlay (hexchanged : Exchanged name old new left right) {entries : List (String × Chars)}
    (hname : ∀ value, (name, value) ∉ entries) :
    Exchanged name old new (left.overlay entries) (right.overlay entries) := by
  induction entries generalizing left right with
  | nil => exact hexchanged
  | cons entry rest ih =>
      obtain ⟨key, value⟩ := entry
      have hkey : key ≠ name := by
        rintro rfl
        exact hname value List.mem_cons_self
      exact ih (hexchanged.put hkey value) fun value hmem =>
        hname value (List.mem_cons_of_mem _ hmem)

theorem has_eq (hexchanged : Exchanged name old new left right) (other : String) :
    left.has other = right.has other := by
  rw [Record.has, Record.has]
  by_cases hother : other = name
  · rw [hother, hexchanged.old, hexchanged.new]
    rfl
  · rw [hexchanged.others other hother]

theorem fill (hexchanged : Exchanged name old new left right) (entries : List (String × Chars)) :
    Exchanged name old new (Input.fill left entries) (Input.fill right entries) := by
  induction entries generalizing left right with
  | nil => exact hexchanged
  | cons entry rest ih =>
      obtain ⟨key, value⟩ := entry
      rw [Input.fill, Input.fill, List.foldl_cons, List.foldl_cons]
      apply ih
      rw [hexchanged.has_eq key]
      cases hkey : right.has key with
      | true =>
          rw [if_pos rfl, if_pos rfl]
          exact hexchanged
      | false =>
          rw [if_neg Bool.false_ne_true, if_neg Bool.false_ne_true]
          apply hexchanged.put
          rintro rfl
          rw [Record.has, hexchanged.new] at hkey
          exact nomatch hkey

end Exchanged

section Parts

variable {front back : List Chars} {part other old new : Chars}

/-- No argument of a list gives the default by keyword. -/
def NoDefaultKey (parts : List Chars) : Prop :=
  ∀ part ∈ parts, ∀ value, keyword? part ≠ some ("defval", value)

theorem NoDefaultKey.not_mem (hback : NoDefaultKey back) (value : Chars) :
    ("defval", value) ∉ back.filterMap keyword? := by
  intro hmem
  obtain ⟨part, hpart, hkey⟩ := List.mem_filterMap.1 hmem
  exact hback part hpart value hkey

/-- The default is exchanged behind its keyword. -/
theorem recordOf_keyword (hpart : keyword? part = some ("defval", old))
    (hother : keyword? other = some ("defval", new)) (hback : NoDefaultKey back) :
    Exchanged "defval" old new (recordOf (front ++ part :: back))
      (recordOf (front ++ other :: back)) := by
  have hplaced : (front ++ part :: back).filter (fun part => (keyword? part).isNone) =
      (front ++ other :: back).filter fun part => (keyword? part).isNone := by
    simp [hpart, hother]
  rw [recordOf, recordOf, hplaced]
  apply Exchanged.fill
  rw [List.filterMap_append, List.filterMap_append, List.filterMap_cons_some hpart,
    List.filterMap_cons_some hother, Record.ofEntries, Record.ofEntries, Record.overlay,
    Record.overlay, List.foldl_append, List.foldl_append, List.foldl_cons, List.foldl_cons]
  exact (Exchanged.of_put _ _ _ _).overlay hback.not_mem

/-- The default is exchanged in the first position. -/
theorem recordOf_first (hpart : keyword? part = none) (hother : keyword? other = none)
    (hback : NoDefaultKey back) :
    Exchanged "defval" part other (recordOf (part :: back)) (recordOf (other :: back)) := by
  have hnamed : (Record.ofEntries (back.filterMap keyword?)).has "defval" = false := by
    have hnone : (Record.ofEntries (back.filterMap keyword?)).get? "defval" = none := by
      apply Record.get?_eq_none
      rw [Record.mem_names_ofEntries]
      intro hmem
      obtain ⟨entry, hentry, hname⟩ := List.mem_map.1 hmem
      apply hback.not_mem entry.2
      rw [← hname]
      exact hentry
    rw [Record.has, hnone]
    rfl
  have hrecord {part : Chars} (hpart : keyword? part = none) : recordOf (part :: back) =
      fill ((Record.ofEntries (back.filterMap keyword?)).put "defval" part)
        (positionalKeys.tail.zip (back.filter fun part => (keyword? part).isNone)) := by
    rw [recordOf, List.filterMap_cons_none hpart, List.filter_cons_of_pos (by rw [hpart]; rfl)]
    change fill (if (Record.ofEntries (back.filterMap keyword?)).has "defval" = true then _ else _)
      _ = _
    rw [hnamed, if_neg Bool.false_ne_true]
    rfl
  rw [hrecord hpart, hrecord hother]
  exact (Exchanged.of_put _ _ _ _).fill _

end Parts

/-! ## Parameters -/

variable {α : Type} [Arith α]

/-- Another default changes the default of a parameter and no other field. -/
theorem ofDeclaration_exchange {found : Declaration} {old new arguments : Chars}
    (hexchanged : Exchanged "defval" old new (argumentRecord found.arguments)
      (argumentRecord arguments)) :
    (Param.ofDeclaration { found with arguments := arguments } : Param α) =
      { (Param.ofDeclaration found : Param α) with
        default := defaultOf (found.kind.getD .float) new } := by
  have hothers {key : String} (hkey : key ≠ "defval") :
      (argumentRecord arguments).get? key = (argumentRecord found.arguments).get? key :=
    (hexchanged.others key hkey).symm
  rw [Param.ofDeclaration, Param.ofDeclaration]
  simp only [filled?, optionsOf, hexchanged.new, hothers (show "title" ≠ "defval" by decide),
    hothers (show "minval" ≠ "defval" by decide), hothers (show "maxval" ≠ "defval" by decide),
    hothers (show "step" ≠ "defval" by decide), hothers (show "options" ≠ "defval" by decide),
    Option.getD_some]

end Backtest.Input
