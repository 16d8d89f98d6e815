import Backtest.Proofs.Decimal.Shown
import Backtest.Proofs.Input.Hole
import Backtest.Proofs.Input.Update

/-!
# Writing values twice

Writing values into a script and then other values for the same names gives what writing the other
values alone gives (`updateCode_last_wins`), where the writer finds the first values again: their
numbers have no exponent, and no declaration gives its default both in the first position and behind
the keyword.  The writer does not take the exponent of a number that it has written itself
(`exponent_stays_behind`).
-/

namespace Backtest.Input

open Text Decimal Backtest.Expr

/-! ## Values of a kind -/

/-- A value of the kind of an input: a finite number, a truth value, or a text without quotes and
brackets. -/
inductive Fills : InputKind → Scalar Float → Prop where
  | int {kind : InputKind} {n : Int} {x : Float} (hkind : kind.isNumeric = true)
      (hx : Arith.ofInt? n = some x) : Fills kind (.int n)
  | real {kind : InputKind} {x : Float} (hkind : kind.isNumeric = true)
      (hx : Arith.isFinite x = true) : Fills kind (.real x)
  | flag (value : Bool) : Fills .bool (.flag value)
  | text {value : String}
      (hvalue : ∀ c ∈ value.toList, isQuote c = false ∧ c ≠ '(' ∧ c ≠ ')') :
      Fills .string (.text value)

/-- The writer finds what it writes for a value again: the text of a number has no exponent, and a
text does not end with the keyword and an equality sign. -/
def Replaceable : Scalar Float → Prop
  | .real x => Arith.isWhole x = false → 'e' ∉ (Arith.text x).toList
  | .text value => ¬ EndsWithKey value.toList
  | _ => True

theorem isNewText_of_isNumeralChar {text : Chars} (hne : text ≠ [])
    (htext : ∀ c ∈ text, IsNumeralChar c) : IsNewText text := by
  refine isNewText_of_forall hne (fun c hc => isPlain_of_isNumeralChar (htext c hc)) ?_
  intro hhead
  rcases htext 'i' (List.mem_of_head? hhead) with hdigit | hmark
  · exact absurd hdigit (by decide)
  · exact absurd hmark (by decide)

theorem refindable_of_isPlainText {kind : InputKind} (hkind : kind.isNumeric = true) {text : Chars}
    (htext : IsPlainText text) : Refindable kind text := by
  obtain ⟨sign, body, rfl, hsign, hne, hbody⟩ := htext
  exact refindable_numeral hkind hsign hne hbody

theorem isNewText_of_isPlainText {text : Chars} (htext : IsPlainText text) : IsNewText text := by
  apply isNewText_of_isNumeralChar _ htext.isNumeralChar
  obtain ⟨sign, body, rfl, _, hne, _⟩ := htext
  exact List.append_ne_nil_of_right_ne_nil sign hne

/-- The text that is written for a value of the kind of an input. -/
theorem Fills.exists_text {kind : InputKind} {value : Scalar Float} (hfills : Fills kind value) :
    ∃ new, updater? kind value =
        .ok (some (updateArguments (keyOf kind) (literalOf kind) new)) ∧
      IsNewText new ∧ (Replaceable value → Refindable kind new) := by
  cases hfills with
  | @int _ n x hkind hx =>
      have hformat : formatValue (.int n : Scalar Float) = .ok (toString n) := by
        rw [formatValue, Scalar.ofInt, hx]
        rfl
      have hplain := isPlainText_toString n
      exact ⟨_, updater?_numeric hkind hformat, isNewText_of_isPlainText hplain,
        fun _ => refindable_of_isPlainText hkind hplain⟩
  | @real _ x hkind hx =>
      cases hwhole : Arith.isWhole x with
      | true =>
          obtain ⟨n, _, hfloor, _, _⟩ := isWhole_iff.1 hwhole
          have hformat : formatValue (.real x) = .ok (toString n) := by
            rw [formatValue, hwhole, hfloor]
          have hplain := isPlainText_toString n
          exact ⟨_, updater?_numeric hkind hformat, isNewText_of_isPlainText hplain,
            fun _ => refindable_of_isPlainText hkind hplain⟩
      | false =>
          have hformat : formatValue (.real x) = .ok (Arith.text x) := by
            rw [formatValue, hwhole]
          obtain ⟨hne, hchars⟩ := isNumeralChar_text hx
          exact ⟨_, updater?_numeric hkind hformat, isNewText_of_isNumeralChar hne hchars,
            fun hplain => refindable_of_isPlainText hkind (isPlainText_text hx (hplain hwhole))⟩
  | flag value =>
      refine ⟨(if value then "true" else "false").toList, rfl, ?_, fun _ => ?_⟩
      · cases value <;> exact isNewText_of_forall (by decide) (by decide) (by decide)
      · cases value
        · exact refindable_truth (.inr rfl)
        · exact refindable_truth (.inl rfl)
  | @text value hvalue =>
      exact ⟨'"' :: (value.toList ++ ['"']), rfl, isNewText_quoted hvalue,
        refindable_quoted fun c hc => (hvalue c hc).1⟩

/-- Kinds with a common value are written alike. -/
theorem Fills.kind_eq {kind other : InputKind} {value : Scalar Float} (hkind : Fills kind value)
    (hother : Fills other value) : keyOf kind = keyOf other ∧ literalOf kind = literalOf other := by
  have hnumeric {kind : InputKind} (hkind : kind.isNumeric = true) :
      keyOf kind = after? "defval".toList ∧ literalOf kind = numeralLiteral := by
    refine ⟨?_, literalOf_numeral hkind⟩
    cases kind with
    | int | float => rfl
    | bool | string | source => exact nomatch hkind
  cases hkind with
  | int hkind _ => cases hother with | int hother _ => simp [hnumeric hkind, hnumeric hother]
  | real hkind _ => cases hother with | real hother _ => simp [hnumeric hkind, hnumeric hother]
  | flag _ => cases hother with | flag _ => exact ⟨rfl, rfl⟩
  | text _ => cases hother with | text _ => exact ⟨rfl, rfl⟩

theorem Fills.ne_source {kind : InputKind} {value : Scalar Float} (hfills : Fills kind value) :
    kind ≠ .source := by
  rintro rfl
  cases hfills with
  | int hkind _ => exact nomatch hkind
  | real hkind _ => exact nomatch hkind

/-! ## Values in a script -/

/-- The value that is given for a declaration is of its kind; source inputs take no value. -/
def Suitable (values : Params Float) (found : Declaration) : Prop :=
  ∀ value, valueOf? values found = some value → found.inputKind ≠ .source →
    Fills found.inputKind value

/-- How a parameter writes its value into arguments, if it writes one. -/
def writer? (values : Params Float) (found : Declaration) : Option (Chars → Chars) :=
  match (valueOf? values found).map (updater? found.inputKind) with
  | some (.ok (some update)) => some update
  | _ => none

/-- The arguments of a declaration after some parameters have written their values. -/
def rewritten (values : Params Float) (todo : List Declaration) (other : Declaration) : Chars :=
  ((todo.filter (·.name = other.name)).filterMap (writer? values)).foldl
    (fun arguments update => update arguments) other.arguments

/-- A parameter writes a text for its value. -/
structure Writes (values : Params Float) (found : Declaration) (value : Scalar Float)
    (new : Chars) : Prop where
  given : valueOf? values found = some value
  fills : Fills found.inputKind value
  updater : updater? found.inputKind value =
    .ok (some (updateArguments (keyOf found.inputKind) (literalOf found.inputKind) new))
  isNewText : IsNewText new
  refindable : Replaceable value → Refindable found.inputKind new

section Script

variable {values : Params Float} {found : Declaration} {value : Scalar Float} {new : Chars}

theorem Writes.writer?_eq (hwrites : Writes values found value new) : writer? values found =
    some (updateArguments (keyOf found.inputKind) (literalOf found.inputKind) new) := by
  rw [writer?, hwrites.given, Option.map_some, hwrites.updater]

theorem Writes.updateParam_eq (hwrites : Writes values found value new) (code : Chars) :
    updateParam values code (Param.ofDeclaration found) =
      .ok (updateNamed (String.ofList found.name)
        (updateArguments (keyOf found.inputKind) (literalOf found.inputKind) new) code) := by
  rw [updateParam_ofDeclaration, hwrites.given]
  dsimp only
  rw [hwrites.updater]
  rfl

theorem Suitable.exists_writes (hsuitable : Suitable values found)
    (hvalue : valueOf? values found = some value) (hkind : found.inputKind ≠ .source) :
    ∃ new, Writes values found value new := by
  have hfills := hsuitable value hvalue hkind
  obtain ⟨new, hupdater, hnew, hrefindable⟩ := hfills.exists_text
  exact ⟨new, hvalue, hfills, hupdater, hnew, hrefindable⟩

/-- A parameter writes a text for its value, or leaves the script as it is. -/
theorem Suitable.writes (hsuitable : Suitable values found) :
    (writer? values found = none ∧
      ∀ code, updateParam values code (Param.ofDeclaration found) = .ok code) ∨
      ∃ value new, Writes values found value new := by
  cases hvalue : valueOf? values found with
  | none =>
      refine .inl ⟨by rw [writer?, hvalue]; rfl, fun code => ?_⟩
      rw [updateParam_ofDeclaration, hvalue]
  | some value =>
      by_cases hsource : found.inputKind = .source
      · refine .inl ⟨by rw [writer?, hvalue, Option.map_some, hsource]; rfl, fun code => ?_⟩
        rw [updateParam_ofDeclaration, hvalue]
        dsimp only
        rw [hsource]
        rfl
      · exact .inr ⟨value, hsuitable.exists_writes hvalue hsource⟩

theorem exists_writes_of_writer? (hsuitable : Suitable values found) {update : Chars → Chars}
    (hwriter : writer? values found = some update) : ∃ value new, Writes values found value new ∧
      update = updateArguments (keyOf found.inputKind) (literalOf found.inputKind) new := by
  rcases hsuitable.writes with ⟨hnone, _⟩ | ⟨value, new, hwrites⟩
  · rw [hnone] at hwriter
    exact nomatch hwriter
  · rw [hwrites.writer?_eq] at hwriter
    injection hwriter with hupdate
    exact ⟨value, new, hwrites, hupdate.symm⟩

/-! ## Segments -/

/-- Segments that a scan makes of their text, whose declarations open no other ones. -/
structure Settled (segs : List Segment) : Prop where
  cut : Cut segs
  opensNone : ∀ found ∈ declared segs, OpensNone found.arguments

/-- The segments after some parameters have written their values. -/
def rewriteAll (values : Params Float) (todo : List Declaration) (segs : List Segment) :
    List Segment := segs.map (Segment.renew (rewritten values todo))

variable {todo : List Declaration} {segs : List Segment}

theorem rewritten_cons (values : Params Float) (found : Declaration) (todo : List Declaration)
    (other : Declaration) : rewritten values (found :: todo) other =
      rewritten values todo { other with arguments := rewritten values [found] other } := by
  have hsplit : (found :: todo).filter (·.name = other.name) =
      [found].filter (·.name = other.name) ++ todo.filter (·.name = other.name) := by
    rw [← List.filter_append, List.singleton_append]
  rw [rewritten, hsplit, List.filterMap_append, List.foldl_append]
  rfl

theorem rewriteAll_cons (values : Params Float) (found : Declaration) (todo : List Declaration)
    (segs : List Segment) : rewriteAll values (found :: todo) segs =
      rewriteAll values todo (rewriteAll values [found] segs) := by
  rw [rewriteAll, rewriteAll, rewriteAll, List.map_map]
  apply List.map_congr_left
  intro seg _
  cases seg with
  | verbatim text => rfl
  | declaration other =>
      rw [Function.comp_apply, Segment.renew, Segment.renew, Segment.renew, rewritten_cons]

theorem rewritten_singleton (hwriter : writer? values found = none) (other : Declaration) :
    rewritten values [found] other = other.arguments := by
  rw [rewritten, List.filter_cons, List.filter_nil]
  split
  · rw [List.filterMap_cons_none hwriter]
    rfl
  · rfl

theorem Writes.rewritten_singleton (hwrites : Writes values found value new) (other : Declaration) :
    rewritten values [found] other = renewNamed (String.ofList found.name)
      (updateArguments (keyOf found.inputKind) (literalOf found.inputKind) new) other := by
  rw [rewritten, renewNamed, String.toList_ofList, List.filter_cons, List.filter_nil]
  by_cases hname : found.name = other.name
  · rw [if_pos (decide_eq_true hname), if_pos hname.symm,
      List.filterMap_cons_some hwrites.writer?_eq]
    rfl
  · rw [if_neg (by simpa using hname), if_neg (Ne.symm hname)]
    rfl

/-- One parameter writes its value into the declarations of its name. -/
theorem updateParam_written (hsuitable : Suitable values found) (hsegs : Settled segs) :
    updateParam values (written segs) (Param.ofDeclaration found) =
        .ok (written (rewriteAll values [found] segs)) ∧
      Settled (rewriteAll values [found] segs) := by
  rcases hsuitable.writes with ⟨hwriter, hupdate⟩ | ⟨value, new, hwrites⟩
  · have hsame : rewriteAll values [found] segs = segs := by
      have hid : Segment.renew (rewritten values [found]) = id := by
        funext seg
        cases seg with
        | verbatim text => rfl
        | declaration other => rw [Segment.renew, rewritten_singleton hwriter]; rfl
      rw [rewriteAll, hid, List.map_id]
    rw [hsame]
    exact ⟨hupdate _, hsegs⟩
  · have hrewritten (arguments : Chars) := rewritten_update found.inputKind arguments new
    have hrenew : rewritten values [found] = renewNamed (String.ofList found.name) _ :=
      funext hwrites.rewritten_singleton
    rw [hwrites.updateParam_eq, updateNamed_written hsegs.cut
      fun other hother _ => hsegs.opensNone other hother, rewriteAll, hrenew]
    refine ⟨rfl, hsegs.cut.renew fun other hother => ?_, fun other hother => ?_⟩
    · have hclosed := (hsegs.cut.proper other hother).closed
      rw [renewNamed]
      split
      · exact (hrewritten _).closed hwrites.isNewText hclosed
      · exact hclosed
    · rw [declared_map_renew] at hother
      obtain ⟨before, hbefore, rfl⟩ := List.mem_map.1 hother
      have hnone := hsegs.opensNone before hbefore
      dsimp only [renewNamed]
      split
      · exact (hrewritten _).opensNone hwrites.isNewText hnone
      · exact hnone

/-- The parameters write their values one after the other. -/
theorem foldlM_written (hsuitable : ∀ found ∈ todo, Suitable values found) (hsegs : Settled segs) :
    (todo.map Param.ofDeclaration).foldlM (updateParam values) (written segs) =
        .ok (written (rewriteAll values todo segs)) ∧ Settled (rewriteAll values todo segs) := by
  induction todo generalizing segs with
  | nil =>
      have hsame : rewriteAll values [] segs = segs := by
        have hid : Segment.renew (rewritten values []) = id := by
          funext seg
          cases seg <;> rfl
        rw [rewriteAll, hid, List.map_id]
      rw [hsame]
      exact ⟨rfl, hsegs⟩
  | cons found todo ih =>
      obtain ⟨hfirst, hsettled⟩ := updateParam_written (hsuitable found List.mem_cons_self) hsegs
      rw [List.map_cons, List.foldlM_cons, hfirst, rewriteAll_cons values found todo segs]
      exact ih (fun later hlater => hsuitable later (List.mem_cons_of_mem _ hlater)) hsettled

end Script

/-! ## The last value counts -/

/-- Steps that undo what other steps have done leave nothing of them. -/
theorem foldl_absorb {β : Type} {P : β → Prop} {first last : List (β → β)}
    (hempty : last = [] → first = []) (hkeeps : ∀ f ∈ first, ∀ a, P a → P (f a))
    (habsorbs : ∀ g ∈ last, ∀ f ∈ first, ∀ a, P a → g (f a) = g a) {a : β} (ha : P a) :
    last.foldl (fun a g => g a) (first.foldl (fun a f => f a) a) =
      last.foldl (fun a g => g a) a := by
  cases last with
  | nil => rw [hempty rfl]; rfl
  | cons g rest =>
      have hfirst : ∀ (steps : List (β → β)), (∀ f ∈ steps, f ∈ first) → ∀ a, P a →
          g (steps.foldl (fun a f => f a) a) = g a := by
        intro steps
        induction steps with
        | nil => exact fun _ _ _ => rfl
        | cons f steps ih =>
            intro hmem a ha
            have hf := hmem f List.mem_cons_self
            rw [List.foldl_cons, ih (fun other hother => hmem other (List.mem_cons_of_mem _ hother))
              _ (hkeeps f hf a ha), habsorbs g List.mem_cons_self f hf a ha]
      rw [List.foldl_cons, List.foldl_cons, hfirst first (fun _ hf => hf) a ha]

section Twice

variable {first second : Params Float} {founds : List Declaration} {code : Chars}

/-- What writes the values for a name writes one of them into a declaration of that name. -/
theorem exists_writes_of_mem {values : Params Float} {name : Chars} {update : Chars → Chars}
    (hsuitable : ∀ found ∈ founds, Suitable values found)
    (hmem : update ∈ (founds.filter (·.name = name)).filterMap (writer? values)) :
    ∃ found value new, found ∈ founds ∧ found.name = name ∧ Writes values found value new ∧
      update = updateArguments (keyOf found.inputKind) (literalOf found.inputKind) new := by
  obtain ⟨found, hfound, hupdate⟩ := List.mem_filterMap.1 hmem
  obtain ⟨hfound, hname⟩ := List.mem_filter.1 hfound
  obtain ⟨value, new, hwrites, heq⟩ := exists_writes_of_writer? (hsuitable found hfound) hupdate
  exact ⟨found, value, new, hfound, of_decide_eq_true hname, hwrites, heq⟩

/-- All values for a name are written as those of one of its declarations. -/
theorem Writes.kind_eq {values : Params Float} {lead found : Declaration}
    {value other : Scalar Float} {text new : Chars} (hlead : Writes first lead value text)
    (hname : found.name = lead.name) (hsuitable : Suitable first found)
    (hwrites : Writes values found other new) :
    keyOf found.inputKind = keyOf lead.inputKind ∧
      literalOf found.inputKind = literalOf lead.inputKind := by
  have hgiven : valueOf? first found = some value := (valueOf?_congr hname).trans hlead.given
  exact (hsuitable value hgiven hwrites.fills.ne_source).kind_eq hlead.fills

/-- The second values take the places of the first ones in a declaration. -/
theorem rewritten_rewritten (hfirst : ∀ found ∈ founds, Suitable first found)
    (hsecond : ∀ found ∈ founds, Suitable second found)
    (hnames : ∀ name, first.has name = true → second.has name = true)
    (hreplaceable : ∀ name value, first.get? name = some value → Replaceable value)
    (other : Declaration)
    (hone : ∀ found ∈ founds, found.name = other.name → valueOf? first found ≠ none →
      OneDefault found.inputKind other.arguments) :
    rewritten second founds { other with arguments := rewritten first founds other } =
      rewritten second founds other := by
  by_cases hnone : (founds.filter (·.name = other.name)).filterMap (writer? first) = []
  · have hsame : rewritten first founds other = other.arguments := by
      rw [rewritten, hnone]
      rfl
    rw [hsame]
  · obtain ⟨update, hmem⟩ := List.exists_mem_of_ne_nil _ hnone
    obtain ⟨lead, value, _, hlead, hleadName, hleadWrites, _⟩ := exists_writes_of_mem hfirst hmem
    have hstep {update : Chars → Chars}
        (hmem : update ∈ (founds.filter (·.name = other.name)).filterMap (writer? first)) :
        ∃ kind new, (keyOf kind = keyOf lead.inputKind ∧ literalOf kind = literalOf lead.inputKind) ∧
          Refindable kind new ∧ update = updateArguments (keyOf kind) (literalOf kind) new := by
      obtain ⟨found, _, new, hfound, hname, hwrites, hupdate⟩ := exists_writes_of_mem hfirst hmem
      exact ⟨found.inputKind, new,
        hleadWrites.kind_eq (hname.trans hleadName.symm) (hfirst found hfound) hwrites,
        hwrites.refindable (hreplaceable _ _ hwrites.given), hupdate⟩
    have hleadOne := hone lead hlead hleadName (by rw [hleadWrites.given]; exact nofun)
    refine foldl_absorb (P := OneDefault lead.inputKind) ?_ ?_ ?_ hleadOne
    · intro hempty
      have hgiven : first.get? (String.ofList lead.name) = some value := hleadWrites.given
      obtain ⟨third, hthird⟩ := Option.isSome_iff_exists.1
        (hnames (String.ofList lead.name) (by rw [Record.has, hgiven]; rfl))
      obtain ⟨new, hwrites⟩ := (hsecond lead hlead).exists_writes hthird hleadWrites.fills.ne_source
      have hmem : _ ∈ (founds.filter (·.name = other.name)).filterMap (writer? second) :=
        List.mem_filterMap.2
          ⟨lead, List.mem_filter.2 ⟨hlead, decide_eq_true hleadName⟩, hwrites.writer?_eq⟩
      rw [hempty] at hmem
      exact absurd hmem List.not_mem_nil
    · intro update hmem arguments harguments
      obtain ⟨kind, new, heq, hnew, rfl⟩ := hstep hmem
      rw [← oneDefault_congr heq] at harguments ⊢
      exact harguments.update hnew
    · intro last hlast update hmem arguments harguments
      obtain ⟨kind, new, heq, hnew, rfl⟩ := hstep hmem
      obtain ⟨found, _, text, hfound, hname, hwrites, rfl⟩ := exists_writes_of_mem hsecond hlast
      obtain ⟨hkey, hliteral⟩ :=
        hleadWrites.kind_eq (hname.trans hleadName.symm) (hfirst found hfound) hwrites
      rw [← oneDefault_congr heq] at harguments
      rw [hkey, hliteral, ← heq.1, ← heq.2]
      exact update_update harguments hnew text

theorem declarations_settled (hnone : Unnested code) : ∃ segs, Settled segs ∧ written segs = code ∧
    declared segs = declarations code := by
  obtain ⟨hcut, hcode⟩ := cut_segments code
  have hdeclared := declarations_written hcut
  rw [hcode] at hdeclared
  exact ⟨_, ⟨hcut, by rwa [← hdeclared]⟩, hcode, hdeclared.symm⟩

/-- Values that are written over other values for the same names leave nothing of them. -/
theorem updateCode_last_wins (hnone : Unnested code)
    (hone : ∀ found ∈ declarations code, ∀ other ∈ declarations code, found.name = other.name →
      valueOf? first found ≠ none → OneDefault found.inputKind other.arguments)
    (hfirst : ∀ found ∈ declarations code, Suitable first found)
    (hsecond : ∀ found ∈ declarations code, Suitable second found)
    (hnames : ∀ name, first.has name = true → second.has name = true)
    (hreplaceable : ∀ name value, first.get? name = some value → Replaceable value) :
    ∃ middle last, updateCode code (params code) first = .ok middle ∧
      updateCode middle (params code) second = .ok last ∧
        updateCode code (params code) second = .ok last := by
  obtain ⟨segs, hsegs, hcode, hdeclared⟩ := declarations_settled hnone
  obtain ⟨hmiddle, hsettled⟩ := foldlM_written hfirst hsegs
  obtain ⟨hlast, _⟩ := foldlM_written hsecond hsettled
  obtain ⟨hdirect, _⟩ := foldlM_written hsecond hsegs
  have hsame : rewriteAll second (declarations code) (rewriteAll first (declarations code) segs) =
      rewriteAll second (declarations code) segs := by
    rw [rewriteAll, rewriteAll, List.map_map, rewriteAll]
    apply List.map_congr_left
    intro seg hseg
    cases seg with
    | verbatim text => rfl
    | declaration other =>
        have hother : other ∈ declarations code := by
          rw [← hdeclared]
          exact List.mem_filterMap.2 ⟨.declaration other, hseg, rfl⟩
        rw [Function.comp_apply, Segment.renew, Segment.renew, Segment.renew,
          rewritten_rewritten hfirst hsecond hnames hreplaceable other
            fun found hfound hname => hone found hfound other hother hname]
  rw [hcode] at hmiddle hdirect
  refine ⟨_, _, hmiddle, ?_, hdirect⟩
  rw [← hsame]
  exact hlast

end Twice

/-- Values for the three inputs. -/
def firstValues : Params Float :=
  [("len", .int 20), ("on", .flag false), ("w", .real (Arith.ofDecimal false 25 (-2)))]

/-- Other values for them; the last one is written with an exponent. -/
def secondValues : Params Float :=
  [("len", .int 7), ("on", .flag true), ("w", .real (Arith.ofDecimal false 1 (-7)))]

theorem suitable_threeInputs {values : Params Float} {n : Int} {value : Bool} {w : Float}
    (hvalues : values = [("len", .int n), ("on", .flag value), ("w", .real w)])
    (hn : (Arith.ofInt? n : Option Float).isSome = true) (hw : Arith.isFinite w = true) :
    ∀ found ∈ threeDeclarations, Suitable values found := by
  subst hvalues
  obtain ⟨x, hx⟩ := Option.isSome_iff_exists.1 hn
  intro found hfound third hthird _
  simp only [threeDeclarations, List.mem_cons, List.not_mem_nil, or_false] at hfound
  rcases hfound with rfl | rfl | rfl
  · injection hthird with hthird
    rw [← hthird]
    exact .int rfl hx
  · injection hthird with hthird
    rw [← hthird]
    exact .flag value
  · injection hthird with hthird
    rw [← hthird]
    exact .real rfl hw

/-- A number, a truth value and a fraction are written twice. -/
theorem updateCode_last_wins_threeInputs :
    ∃ middle last, updateCode threeInputs.toList (params threeInputs.toList) firstValues =
        .ok middle ∧
      updateCode middle (params threeInputs.toList) secondValues = .ok last ∧
        updateCode threeInputs.toList (params threeInputs.toList) secondValues = .ok last := by
  apply updateCode_last_wins
  · rw [Unnested, declarations_threeInputs]
    intro found hfound
    have hall : ∀ found ∈ threeDeclarations, '(' ∉ found.arguments := by decide
    exact opensNone_of_not_mem (hall found hfound)
  · rw [declarations_threeInputs]
    have hall : ∀ found ∈ threeDeclarations, ∀ other ∈ threeDeclarations, found.name = other.name →
        OneDefault found.inputKind other.arguments := by decide +kernel
    exact fun found hfound other hother hname _ => hall found hfound other hother hname
  · rw [declarations_threeInputs]
    exact suitable_threeInputs rfl (by decide +kernel) (by decide +kernel)
  · rw [declarations_threeInputs]
    exact suitable_threeInputs rfl (by decide +kernel) (by decide +kernel)
  · intro name hname
    have hsame : secondValues.has name = firstValues.has name := by
      simp only [Record.has, firstValues, secondValues, Record.get?, apply_ite Option.isSome,
        Option.isSome_some]
    rwa [hsame]
  · intro name value hvalue
    have hmem := Record.mem_of_get? hvalue
    simp only [firstValues, List.mem_cons, List.not_mem_nil, or_false, Prod.mk.injEq] at hmem
    rcases hmem with ⟨_, rfl⟩ | ⟨_, rfl⟩ | ⟨_, rfl⟩
    · trivial
    · trivial
    · intro _
      decide +kernel

/-- The writer takes the digits of a number that it has written, and leaves the exponent behind. -/
theorem exponent_stays_behind :
    let code := "x = input.float(5)".toList
    let first : Params Float := [("x", .real (Arith.ofDecimal false 1 (-7)))]
    let second : Params Float := [("x", .int 2)]
    updateCode code (params code) first = .ok "x = input.float(1e-07)".toList ∧
      updateCode "x = input.float(1e-07)".toList (params code) second =
        .ok "x = input.float(2e-07)".toList ∧
      updateCode code (params code) second = .ok "x = input.float(2)".toList := by
  decide +kernel

/-- Given in both places, the default changes its place once it stands behind the keyword. -/
example : updateCode "x = input.int(5, defval=7)".toList (params "x = input.int(5, defval=7)".toList)
    ([("x", .int 7)] : Params Float) = .ok "x = input.int(7, defval=7)".toList := by
  decide +kernel

end Backtest.Input
