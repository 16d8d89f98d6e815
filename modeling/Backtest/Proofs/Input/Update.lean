import Backtest.Proofs.Decimal.Numeral
import Backtest.Proofs.Exact
import Backtest.Proofs.Input.Default

/-!
# Reading a script with new defaults

Values are written into the declarations of their names, one parameter after the other.  Where the
declarations of these names have plain defaults and the values suit their kinds, reading the new
script gives the old parameters in the old order, with the values as defaults and nothing else
changed (`params_updateCode`).  The reader knows more numerals than the writer: of a default with an
exponent only the digits before it are exchanged (`exponent_stays`).
-/

namespace Backtest.Input

open Text Decimal Backtest.Expr

variable {α : Type} [Arith α]

/-! ## Values -/

/-- The number that a scalar is. -/
def numberOf? : Scalar α → Option α
  | .int n => Arith.ofInt? n
  | .real x => some x
  | _ => none

/-- A default stands for a value: it is the same number, or else the value itself. -/
def StandsFor (default value : Scalar α) : Prop :=
  match numberOf? value with
  | some y => ∃ x, numberOf? default = some x ∧ Arith.same x y = true
  | none => default = value

/-- A text is a numeral of a number. -/
def ReadsAs (text : String) (x : α) : Prop :=
  ∃ numeral, scriptNumeral? text.toList = some numeral ∧ Arith.same numeral.value x = true

/-- A value suits an input: a number whose text, if it is not whole, reads as the number; a truth
value; or a text without quotes and brackets and without white space around it. -/
inductive Suits : InputKind → Scalar α → Prop where
  | int {kind : InputKind} {n : Int} {x : α} (hkind : kind.isNumeric = true)
      (hx : Arith.ofInt? n = some x) : Suits kind (.int n)
  | real {kind : InputKind} {x : α} (hkind : kind.isNumeric = true)
      (hreads : Arith.isWhole x = false → ReadsAs (Arith.text x) x) : Suits kind (.real x)
  | flag (value : Bool) : Suits .bool (.flag value)
  | text {value : String}
      (hvalue : ∀ c ∈ value.toList, isQuote c = false ∧ c ≠ '(' ∧ c ≠ ')')
      (htrim : trim value.toList = value.toList) : Suits .string (.text value)

/-- Equality of numbers is symmetric and transitive, and a decimal integer is read as the number
nearest to it. -/
structure ReadsIntegers (α : Type) [Arith α] : Prop where
  symm : ∀ x y : α, Arith.same x y = true → Arith.same y x = true
  trans : ∀ x y z : α, Arith.same x y = true → Arith.same y z = true → Arith.same x z = true
  integer : ∀ (n : Int) (x : α), Arith.ofInt? n = some x →
    Arith.same (Arith.ofDecimal (decide (n < 0)) n.natAbs 0) x = true

/-! ## What is written and read -/

theorem isNewText_numeral {text : Chars} {numeral : Numeral}
    (hread : scriptNumeral? text = some numeral) : IsNewText text := by
  have hchars := isNumeralChar_of_scriptNumeral? hread
  apply isNewText_of_forall
  · rintro rfl
    have hnone : scriptNumeral? [] = none := rfl
    rw [hnone] at hread
    exact nomatch hread
  · exact fun c hc => isPlain_of_isNumeralChar (hchars c hc)
  · intro hhead
    rcases hchars 'i' (List.mem_of_head? hhead) with hdigit | hmark
    · exact absurd hdigit (by decide)
    · exact absurd hmark (by decide)

theorem leadingNumber?_numeral {text : Chars} {numeral : Numeral}
    (hread : scriptNumeral? text = some numeral) :
    leadingNumber? text = some (numeral.value : α) := by
  have htrim := trimLeft_eq_self (isNewText_numeral hread).trimmed.head
  rw [scriptNumeral?] at hread
  split at hread
  · next found hfound =>
      injection hread with hread
      rw [leadingNumber?, htrim, hfound, hread]
      rfl
  · cases hread

theorem isWhole_iff {x : α} : Arith.isWhole x = true ↔
    ∃ n y, Arith.floor? x = some n ∧ Arith.ofInt? n = some y ∧ Arith.same x y = true := by
  rw [Arith.isWhole]
  cases hfloor : Arith.floor? x with
  | none => simp
  | some n => cases hn : (Arith.ofInt? n : Option α) <;> simp [hn]

/-- A number as the default of an input: a whole one of an integer input is an integer. -/
def numberDefault (kind : InputKind) (value : α) : Scalar α :=
  if kind = .int ∧ Arith.isWhole value = true then .int ((Arith.floor? value).getD 0)
  else .real value

theorem defaultOf_numeral {kind : InputKind} (hkind : kind.isNumeric = true) {text : Chars}
    {numeral : Numeral} (hread : scriptNumeral? text = some numeral) :
    (defaultOf kind text : Scalar α) = numberDefault kind numeral.value := by
  have hleading : leadingNumber? text = some (numeral.value : α) := leadingNumber?_numeral hread
  cases kind with
  | int | float => rw [defaultOf, hleading, numberDefault]
  | bool | string | source => exact nomatch hkind

/-- A numeral that is read as a number gives a default that stands for the number. -/
theorem standsFor_numeral (hlaws : ReadsIntegers α) {kind : InputKind}
    (hkind : kind.isNumeric = true) {text : Chars} {numeral : Numeral}
    (hread : scriptNumeral? text = some numeral) {value : Scalar α} {y : α}
    (hvalue : numberOf? value = some y) (hsame : Arith.same numeral.value y = true) :
    StandsFor (defaultOf kind text) value := by
  rw [StandsFor, hvalue, defaultOf_numeral hkind hread, numberDefault]
  dsimp only
  split
  · next hwhole =>
      obtain ⟨n, z, hfloor, hn, hz⟩ := isWhole_iff.1 hwhole.2
      rw [hfloor]
      exact ⟨z, hn, hlaws.trans z numeral.value y (hlaws.symm numeral.value z hz) hsame⟩
  · exact ⟨numeral.value, rfl, hsame⟩

theorem cleanText_quoted {content : Chars} (hcontent : '"' ∉ content) :
    cleanText ('"' :: (content ++ ['"'])) = trim content := by
  have hquote : isQuote '"' = true := by decide
  have hvalue := isValue_quoted hquote hcontent
  have htrim : trim ('"' :: (content ++ ['"'])) = '"' :: (content ++ ['"']) :=
    trim_of_isTrimmed hvalue.trimmed hvalue.nonempty
  simp [cleanText, htrim, hquote]

/-- The text of a number is written where a numeral stands. -/
theorem updater?_numeric {kind : InputKind} (hkind : kind.isNumeric = true) {text : String}
    {value : Scalar α} (hformat : formatValue value = .ok text) : updater? kind value =
      .ok (some (updateArguments (keyOf kind) (literalOf kind) text.toList)) := by
  cases kind with
  | int | float => rw [updater?, hformat]; rfl
  | bool | string | source => exact absurd hkind Bool.false_ne_true

/-- The writer finds a text for each value that suits an input, and the text is read as a default
that stands for the value. -/
theorem Suits.written (hlaws : ReadsIntegers α) {kind : InputKind} {value : Scalar α}
    (hsuits : Suits kind value) :
    ∃ new, updater? kind value =
        .ok (some (updateArguments (keyOf kind) (literalOf kind) new)) ∧
      IsNewText new ∧ StandsFor (defaultOf kind new) value := by
  cases hsuits with
  | @int kind n x hkind hx =>
      have hformat : formatValue (.int n : Scalar α) = .ok (toString n) := by
        rw [formatValue, Scalar.ofInt, hx]
        rfl
      have hread := scriptNumeral?_toString n
      refine ⟨(toString n).toList, updater?_numeric hkind hformat, isNewText_numeral hread, ?_⟩
      exact standsFor_numeral hlaws hkind hread hx (hlaws.integer n x hx)
  | @real kind x hkind hreads =>
      cases hwhole : Arith.isWhole x with
      | true =>
          obtain ⟨n, y, hfloor, hn, hy⟩ := isWhole_iff.1 hwhole
          have hformat : formatValue (.real x) = .ok (toString n) := by
            rw [formatValue, hwhole, hfloor]
          have hread := scriptNumeral?_toString n
          refine ⟨(toString n).toList, updater?_numeric hkind hformat, isNewText_numeral hread, ?_⟩
          exact standsFor_numeral hlaws hkind hread rfl
            (hlaws.trans _ y x (hlaws.integer n y hn) (hlaws.symm x y hy))
      | false =>
          obtain ⟨numeral, hread, hsame⟩ := hreads hwhole
          have hformat : formatValue (.real x) = .ok (Arith.text x) := by
            rw [formatValue, hwhole]
          exact ⟨(Arith.text x).toList, updater?_numeric hkind hformat, isNewText_numeral hread,
            standsFor_numeral hlaws hkind hread rfl hsame⟩
  | flag value =>
      refine ⟨(if value then "true" else "false").toList, rfl, ?_, ?_⟩
      · cases value <;> exact isNewText_of_forall (by decide) (by decide) (by decide)
      · cases value <;> rfl
  | @text value hvalue htrim =>
      refine ⟨'"' :: (value.toList ++ ['"']), rfl, isNewText_quoted hvalue, ?_⟩
      have hcontent : '"' ∉ value.toList := fun hmem => absurd (hvalue _ hmem).1 (by decide)
      rw [StandsFor, defaultOf, cleanText_quoted hcontent, htrim, String.ofList_toList]
      rfl

/-! ## One declaration after the other -/

/-- The kind of the input that a declaration declares. -/
def Declaration.inputKind (found : Declaration) : InputKind := found.kind.getD .float

/-- The value that is given for a declaration. -/
def valueOf? (values : Params α) (found : Declaration) : Option (Scalar α) :=
  values.get? (String.ofList found.name)

/-- The declaration with the value that is given for it, if the value can be written. -/
def Declaration.withValue (values : Params α) (found : Declaration) : Declaration :=
  match (valueOf? values found).map (updater? found.inputKind) with
  | some (.ok (some update)) => { found with arguments := update found.arguments }
  | _ => found

/-- A declaration after the value for one of the same or another name has been written. -/
def Declaration.writeTo (values : Params α) (found other : Declaration) : Declaration :=
  if other.name = found.name then other.withValue values else other

/-- What has to hold of a declaration for a value to be written into it. -/
def Writable (values : Params α) (found : Declaration) : Prop :=
  ∀ value, valueOf? values found = some value →
    Suits found.inputKind value ∧ PlainDefault found.inputKind found.arguments

theorem proper_of_mem_declarations {code : Chars} {found : Declaration}
    (hfound : found ∈ declarations code) : found.Proper := by
  obtain ⟨hcut, hcode⟩ := cut_segments code
  rw [← hcode, declarations_written hcut] at hfound
  exact hcut.proper found hfound

omit [Arith α] in
theorem valueOf?_congr {values : Params α} {found other : Declaration}
    (hname : found.name = other.name) : valueOf? values found = valueOf? values other := by
  rw [valueOf?, hname, valueOf?]

theorem withValue_of_none {values : Params α} {found : Declaration}
    (hnone : valueOf? values found = none) : found.withValue values = found := by
  rw [Declaration.withValue, hnone]
  rfl

theorem withValue_of_updater? {values : Params α} {found : Declaration} {value : Scalar α}
    (hvalue : valueOf? values found = some value) {update : Chars → Chars}
    (hupdater : updater? found.inputKind value = .ok (some update)) :
    found.withValue values = { found with arguments := update found.arguments } := by
  rw [Declaration.withValue, hvalue, Option.map_some, hupdater]

theorem name_withValue (values : Params α) (found : Declaration) :
    (found.withValue values).name = found.name := by
  rw [Declaration.withValue]
  split <;> rfl

theorem writeTo_of_none {values : Params α} {found : Declaration}
    (hnone : valueOf? values found = none) (other : Declaration) :
    found.writeTo values other = other := by
  rw [Declaration.writeTo]
  split
  · next hname => exact withValue_of_none ((valueOf?_congr hname).trans hnone)
  · rfl

theorem writeTo_of_name_ne {values : Params α} {found other : Declaration}
    (hname : other.name ≠ found.name) : found.writeTo values other = other := if_neg hname

theorem name_writeTo (values : Params α) (found other : Declaration) :
    (found.writeTo values other).name = other.name := by
  rw [Declaration.writeTo]
  split
  · exact name_withValue values other
  · rfl

theorem updateParam_ofDeclaration (values : Params α) (code : Chars) (found : Declaration) :
    updateParam values code (Param.ofDeclaration found) =
      match valueOf? values found with
      | none => .ok code
      | some value => updater? found.inputKind value >>= fun update? => match update? with
        | some update => .ok (updateNamed (String.ofList found.name) update code)
        | none => .ok code := rfl

/-- A name that has a value is declared once. -/
def Once (values : Params α) (first second : Declaration) : Prop :=
  first.name = second.name → valueOf? values first = none

theorem writeTo_of_once {values : Params α} {found other : Declaration}
    (honce : Once values found other) : found.writeTo values other = other := by
  by_cases hname : other.name = found.name
  · exact writeTo_of_none (honce hname.symm) other
  · exact writeTo_of_name_ne hname

/-- A declaration whose name has a value is the only one of its name. -/
def Lone (values : Params α) (code : Chars) (found : Declaration) : Prop :=
  ∀ value, valueOf? values found = some value →
    ∀ other ∈ declarations code, other.name = found.name → other = found

/-- No declaration of a script opens another one. -/
def Unnested (code : Chars) : Prop := ∀ found ∈ declarations code, OpensNone found.arguments

/-- Writing the value of one parameter changes the declaration of its name only. -/
theorem updateParam_declaration (hlaws : ReadsIntegers α) {values : Params α} {code : Chars}
    {found : Declaration} (hwritable : Writable values found) (hlone : Lone values code found)
    (hnone : Unnested code) :
    ∃ text, updateParam values code (Param.ofDeclaration found) = .ok text ∧
      declarations text = (declarations code).map (found.writeTo values) ∧ Unnested text := by
  cases hvalue : valueOf? values found with
  | none =>
      refine ⟨code, ?_, ?_, hnone⟩
      · rw [updateParam_ofDeclaration, hvalue]
      · rw [funext (writeTo_of_none hvalue), List.map_id']
  | some value =>
      obtain ⟨hsuits, hplain⟩ := hwritable value hvalue
      obtain ⟨new, hupdater, hnew, _⟩ := hsuits.written hlaws
      have hrenewed := hplain.update hnew
      have hname : (String.ofList found.name).toList = found.name := String.toList_ofList
      have hsame := hlone value hvalue
      have hdeclarations : declarations (updateNamed (String.ofList found.name)
          (updateArguments (keyOf found.inputKind) (literalOf found.inputKind) new) code) =
          (declarations code).map (found.writeTo values) := by
        rw [declarations_updateNamed]
        · apply List.map_congr_left
          intro other hother
          rw [renewNamed, hname, Declaration.writeTo]
          by_cases heq : other.name = found.name
          · rw [if_pos heq, if_pos heq, hsame other hother heq,
              withValue_of_updater? hvalue hupdater]
          · rw [if_neg heq, if_neg heq]
        · intro other hother heq
          obtain rfl := hsame other hother (heq.trans hname)
          exact hrenewed.closed (proper_of_mem_declarations hother).closed
        · exact fun other hother _ => hnone other hother
      refine ⟨_, ?_, hdeclarations, ?_⟩
      · rw [updateParam_ofDeclaration, hvalue]
        dsimp only
        rw [hupdater]
        rfl
      · intro other hother
        rw [hdeclarations] at hother
        obtain ⟨before, hbefore, rfl⟩ := List.mem_map.1 hother
        rw [Declaration.writeTo]
        split
        · next heq =>
            obtain rfl := hsame before hbefore heq
            rw [withValue_of_updater? hvalue hupdater]
            exact hrenewed.opensNone (hnone before hbefore)
        · exact hnone before hbefore

/-- Writing the values of some parameters, one after the other. -/
theorem foldlM_updateParam (hlaws : ReadsIntegers α) {values : Params α} {todo : List Declaration}
    (honce : todo.Pairwise (Once values)) (hwritable : ∀ found ∈ todo, Writable values found)
    {code : Chars} (hlone : ∀ found ∈ todo, Lone values code found) (hnone : Unnested code) :
    ∃ text, (todo.map Param.ofDeclaration).foldlM (updateParam values) code = .ok text ∧
      declarations text = (declarations code).map fun other =>
        todo.foldl (fun other found => found.writeTo values other) other := by
  induction todo generalizing code with
  | nil => exact ⟨code, rfl, by simp⟩
  | cons found todo ih =>
      obtain ⟨hfirst, hpairs⟩ := List.pairwise_cons.1 honce
      obtain ⟨middle, hmiddle, hdeclarations, hunnested⟩ := updateParam_declaration hlaws
        (hwritable found List.mem_cons_self) (hlone found List.mem_cons_self) hnone
      have hlater : ∀ later ∈ todo, Lone values middle later := by
        intro later hmem value hvalue other hother hname
        rw [hdeclarations] at hother
        obtain ⟨before, hbefore, rfl⟩ := List.mem_map.1 hother
        rw [name_writeTo] at hname
        rw [hlone later (List.mem_cons_of_mem _ hmem) value hvalue before hbefore hname]
        exact writeTo_of_once (hfirst later hmem)
      obtain ⟨text, htext, hlast⟩ := ih hpairs
        (fun later hmem => hwritable later (List.mem_cons_of_mem _ hmem)) hlater hunnested
      refine ⟨text, ?_, ?_⟩
      · rw [List.map_cons, List.foldlM_cons, hmiddle]
        exact htext
      · rw [hlast, hdeclarations, List.map_map]
        rfl

omit [Arith α] in
theorem lone_of_pairwise {values : Params α} {founds : List Declaration}
    (honce : founds.Pairwise (Once values)) {found other : Declaration} (hfound : found ∈ founds)
    (hother : other ∈ founds) {value : Scalar α} (hvalue : valueOf? values found = some value)
    (hname : other.name = found.name) : other = found := by
  have hnot : ∀ first second : Declaration, first.name = found.name → ¬ (Once values first second ∧
      first.name = second.name) := by
    rintro first second hfirst ⟨hpair, hsecond⟩
    have hnone := hpair hsecond
    rw [valueOf?_congr hfirst, hvalue] at hnone
    exact nomatch hnone
  induction founds with
  | nil => exact absurd hfound List.not_mem_nil
  | cons first rest ih =>
      obtain ⟨hfirst, hrest⟩ := List.pairwise_cons.1 honce
      rcases List.mem_cons.1 hfound with rfl | hfoundRest
      · rcases List.mem_cons.1 hother with rfl | hotherRest
        · rfl
        · exact absurd ⟨hfirst other hotherRest, hname.symm⟩ (hnot found other rfl)
      · rcases List.mem_cons.1 hother with rfl | hotherRest
        · exact absurd ⟨hfirst found hfoundRest, hname⟩ (hnot other found hname)
        · exact ih hrest hfoundRest hotherRest

/-- Each declaration is written to once, with the value for it. -/
theorem foldl_writeTo {values : Params α} {founds : List Declaration}
    (honce : founds.Pairwise (Once values)) {found : Declaration} (hfound : found ∈ founds) :
    founds.foldl (fun other found => found.writeTo values other) found =
      found.withValue values := by
  have hstays : ∀ (later : List Declaration) (other : Declaration),
      (∀ next ∈ later, next.writeTo values other = other) →
        later.foldl (fun other found => found.writeTo values other) other = other := by
    intro later other hlater
    induction later with
    | nil => rfl
    | cons next later ih =>
        rw [List.foldl_cons, hlater next List.mem_cons_self]
        exact ih fun third hthird => hlater third (List.mem_cons_of_mem _ hthird)
  induction founds with
  | nil => exact absurd hfound List.not_mem_nil
  | cons first rest ih =>
      obtain ⟨hfirst, hrest⟩ := List.pairwise_cons.1 honce
      rw [List.foldl_cons]
      rcases List.mem_cons.1 hfound with rfl | hmem
      · have hwritten : found.writeTo values found = found.withValue values := if_pos rfl
        rw [hwritten]
        apply hstays
        intro next hnext
        by_cases hname : (found.withValue values).name = next.name
        · rw [name_withValue] at hname
          exact writeTo_of_none ((valueOf?_congr hname).symm.trans (hfirst next hnext hname)) _
        · exact writeTo_of_name_ne hname
      · rw [writeTo_of_once (hfirst found hmem)]
        exact ih hrest hmem

/-- A parameter before and after values are written: its default stands for the value of its name,
and all other fields are the same. -/
def Renews (values : Params α) (old new : Param α) : Prop :=
  match values.get? old.name with
  | none => new = old
  | some value => ∃ default, StandsFor default value ∧ new = { old with default := default }

/-- Reading a script with new defaults gives the old parameters with the values as defaults. -/
theorem params_updateCode (hlaws : ReadsIntegers α) {code : Chars} {values : Params α}
    (hwritable : ∀ found ∈ declarations code, Writable values found)
    (honce : (declarations code).Pairwise (Once values)) (hnone : Unnested code) :
    ∃ text, updateCode code (params code) values = .ok text ∧
      List.Forall₂ (Renews values) (params code) (params text) := by
  have hlone : ∀ found ∈ declarations code, Lone values code found :=
    fun found hfound value hvalue other hother hname =>
      lone_of_pairwise honce hfound hother hvalue hname
  obtain ⟨text, htext, hdeclarations⟩ := foldlM_updateParam hlaws honce hwritable hlone hnone
  refine ⟨text, htext, ?_⟩
  rw [params, params, hdeclarations, List.map_map, List.forall₂_map_left_iff,
    List.forall₂_map_right_iff, List.forall₂_same]
  intro found hfound
  rw [Function.comp_apply, foldl_writeTo honce hfound]
  change match valueOf? values found with
    | none => _
    | some value => ∃ default, StandsFor default value ∧ _
  cases hvalue : valueOf? values found with
  | none => rw [withValue_of_none hvalue]
  | some value =>
      obtain ⟨hsuits, hplain⟩ := hwritable found hfound value hvalue
      obtain ⟨new, hupdater, hnew, hstands⟩ := hsuits.written hlaws
      obtain ⟨old, hexchanged⟩ := (hplain.update hnew).exchanged
      rw [withValue_of_updater? hvalue hupdater]
      exact ⟨defaultOf found.inputKind new, hstands, ofDeclaration_exchange hexchanged⟩

/-! ## Two scripts -/

theorem exact_ofDecimal (n : Int) :
    (Arith.ofDecimal (decide (n < 0)) n.natAbs 0 : Exact) = .finite n := by
  have hsign : (if decide (n < 0) = true then -1 else 1) * (n.natAbs : Rat) = n := by
    rw [← Rat.intCast_natCast]
    by_cases hn : n < 0
    · rw [if_pos (decide_eq_true hn), Int.ofNat_natAbs_of_nonpos (Int.le_of_lt hn),
        Rat.intCast_neg, Rat.neg_mul, Rat.one_mul, Rat.neg_neg]
    · rw [if_neg (by simpa using hn), Int.natAbs_of_nonneg (Int.not_lt.1 hn), Rat.one_mul]
  change Exact.finite (_ * (10 : Rat) ^ (0 : Int)) = _
  rw [hsign, Rat.zpow_zero, Rat.mul_one]

theorem exact_readsIntegers : ReadsIntegers Exact := by
  refine ⟨?_, ?_, ?_⟩
  · intro x y hsame
    cases x <;> cases y <;> simp_all [Arith.same, Exact.compare]
  · intro x y z hfirst hsecond
    cases x <;> cases y <;> cases z <;> simp_all [Arith.same, Exact.compare]
  · intro n x hx
    injection hx with hx
    rw [exact_ofDecimal, ← hx]
    exact beq_self_eq_true (n : Rat)

theorem opensNone_of_not_mem {text : Chars} (htext : '(' ∉ text) : OpensNone text := by
  rintro front back rfl
  exact absurd (List.mem_append_right front List.mem_cons_self) htext

/-- Three inputs, one with its default in the first position and one behind the keyword. -/
def threeInputs : String :=
  "len = input.int(14, minval=2)\non = input.bool(title=\"On\", defval=true)\nw = input.float(1.5)"

def threeDeclarations : List Declaration :=
  [⟨"len".toList, " = input.int(".toList, some .int, "14, minval=2".toList⟩,
    ⟨"on".toList, " = input.bool(".toList, some .bool, "title=\"On\", defval=true".toList⟩,
    ⟨"w".toList, " = input.float(".toList, some .float, "1.5".toList⟩]

theorem declarations_threeInputs : declarations threeInputs.toList = threeDeclarations := by
  decide +kernel

/-- New values for the first two inputs. -/
def twoValues : Params Exact := [("len", .int 20), ("on", .flag false)]

theorem plainDefault_len : PlainDefault .int "14, minval=2".toList :=
  @PlainDefault.first .int [] "14".toList [] ", minval=2".toList nofun
    (@IsLiteral.numeral .int [] "14".toList rfl (.inl rfl) (by decide) (by decide)) nofun
    (by intro c hc; injection hc with hc; exact hc.symm) (by decide +kernel)

theorem plainDefault_on : PlainDefault .bool "title=\"On\", defval=true".toList :=
  @PlainDefault.keyword .bool "title=\"On\",".toList [' '] [] [] "true".toList [] [] (by decide)
    (by decide) (by decide +kernel) nofun nofun (.truth (.inl rfl)) nofun nofun (by decide +kernel)
    (by decide)

/-- The new values are read back, and the third input is as it was. -/
theorem params_updateCode_threeInputs :
    ∃ text, updateCode threeInputs.toList (params threeInputs.toList) twoValues = .ok text ∧
      List.Forall₂ (Renews twoValues) (params threeInputs.toList) (params text) := by
  apply params_updateCode exact_readsIntegers
  · rw [declarations_threeInputs]
    intro found hfound value hvalue
    simp only [threeDeclarations, List.mem_cons, List.not_mem_nil, or_false] at hfound
    rcases hfound with rfl | rfl | rfl
    · injection hvalue with hvalue
      rw [← hvalue]
      exact ⟨.int rfl rfl, plainDefault_len⟩
    · injection hvalue with hvalue
      rw [← hvalue]
      exact ⟨.flag false, plainDefault_on⟩
    · exact nomatch hvalue
  · rw [declarations_threeInputs]
    simp [threeDeclarations, Once]
  · intro found hfound
    rw [declarations_threeInputs] at hfound
    have hall : ∀ found ∈ threeDeclarations, '(' ∉ found.arguments := by decide
    exact opensNone_of_not_mem (hall found hfound)

/-- An input whose default has an exponent. -/
def exponentInput : String := "x = input.float(1e-3)"

/-- A new value for it. -/
def sevenValue : Params Exact := [("x", .int 7)]

/-- The exponent stays behind the new default: the value seven is read back as seven thousandths. -/
theorem exponent_stays :
    ∃ text, updateCode exponentInput.toList (params exponentInput.toList) sevenValue = .ok text ∧
      ¬ List.Forall₂ (Renews sevenValue) (params exponentInput.toList) (params text) := by
  refine ⟨"x = input.float(7e-3)".toList, by decide +kernel, fun hrenewed => ?_⟩
  have hnames : (params (α := Exact) exponentInput.toList).map (·.name) = ["x"] := by
    decide +kernel
  have hdefaults : (params (α := Exact) "x = input.float(7e-3)".toList).map
      (numberOf? ·.default) = [some (.finite (7 / 1000))] := by
    decide +kernel
  obtain ⟨old, hold, hname⟩ := List.map_eq_singleton_iff.1 hnames
  obtain ⟨new, hnew, hdefault⟩ := List.map_eq_singleton_iff.1 hdefaults
  rw [hold, hnew, List.forall₂_cons] at hrenewed
  have hpair := hrenewed.1
  rw [Renews, hname] at hpair
  obtain ⟨default, ⟨x, hx, hsame⟩, hupdated⟩ := hpair
  rw [hupdated, hx] at hdefault
  injection hdefault with hdefault
  rw [hdefault] at hsame
  exact absurd hsame (by decide +kernel)

end Backtest.Input
