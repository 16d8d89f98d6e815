import Backtest.Proofs.Script.Phrase

/-!
# Reading a printed line

Each row of a printed script is read as what it was printed from: an assignment, a destructuring or
a signal (`simple?_assign`, `simple?_destructure`, `simple?_signal`), or the head of a branch
(`ifCondition?_if`, `elseIfCondition?_elseIf`).  The forms are told apart by their first word.
-/

namespace Backtest.Script

open Text Backtest.Expr

variable {text : Chars}

/-! ## Assignments -/

section Assignments

variable {name : String} {expression : Chars}

theorem isLineText_assign (hname : IsName name) (hexpression : IsPhrase expression) :
    IsLineText (assignText name expression) := by
  have htext : IsLineText ((name.toList ++ [' ', '=', ' ']) ++ expression) :=
    (hname.isOpening.append (by decide)).isLineText_phrase hexpression
  rwa [List.append_assoc] at htext

theorem fromSignal?_assign (hname : IsName name) (hexpression : IsPhrase expression) :
    fromSignal? (assignText name expression) = none := by
  have hdot : '.' ∉ name.toList ++ [' '] := by
    rw [List.mem_append, not_or]
    exact ⟨hname.notMem (by decide), by decide⟩
  have htext : assignText name expression = (name.toList ++ [' ']) ++ '=' :: ' ' :: expression := by
    rw [assignText, List.append_assoc]
    rfl
  rw [htext, fromSignal?_append_cons (by decide) (by decide) (by decide)
    (fromSignal?_of_noDot hdot), fromSignal?_cons_of_ne (by decide), hexpression.noSignal]

theorem destructuring?_assign (hname : IsName name) :
    destructuring? (assignText name expression) = none := by
  obtain ⟨c, rest, hchars, hc⟩ := hname.head
  have hopen : c ≠ '[' := by
    rintro rfl
    exact absurd hc (by decide)
  rw [destructuring?, assignText, hchars, List.cons_append, after?_cons_of_ne hopen]
  rfl

theorem bareAssignment?_assign (hname : IsName name) (hexpression : IsPhrase expression) :
    bareAssignment? (assignText name expression) = some (name, expression) := by
  have hstop : ∀ c, (' ' :: '=' :: ' ' :: expression).head? = some c → isWord c = false := by
    intro c hc
    injection hc with hc
    rw [← hc]
    decide
  have htrim : trim ([' '] ++ (expression ++ [])) = expression :=
    trim_padded (by decide) nofun hexpression.trimmed hexpression.nonempty
  have hright : afterAssign? (trimLeft (' ' :: '=' :: ' ' :: expression)) =
      some (' ' :: expression) := rfl
  rw [List.append_nil, List.singleton_append] at htrim
  rw [bareAssignment?, List.span_eq_takeWhile_dropWhile, assignText,
    takeWhile_append_of_stop hname.word hstop, dropWhile_append_of_stop hname.word hstop]
  dsimp only
  rw [hright, Option.bind_eq_bind, Option.bind_some, htrim,
    List.isEmpty_eq_false_iff.2 hname.nonempty, List.isEmpty_eq_false_iff.2 hexpression.nonempty,
    String.ofList_toList]
  rfl

/-- A name that looks like a word of a declaration is read as a name, as an equality sign and no
name follows it. -/
theorem assignment?_assign (hname : IsName name) (hexpression : IsPhrase expression) :
    assignment? (assignText name expression) = some (name, expression) := by
  have hsign : ∀ start ∈ ['=' :: ' ' :: expression], bareAssignment? start = none :=
    List.forall_mem_singleton.2 rfl
  have hspaced {words : List String} (hwords : ∀ word ∈ words, ' ' ∉ word.toList) :
      ∀ rest ∈ words.filterMap fun word => afterSpaced? word (assignText name expression),
        rest = '=' :: ' ' :: expression := by
    intro rest hrest
    obtain ⟨word, hword, hspaced⟩ := List.mem_filterMap.1 hrest
    rw [assignText, afterSpaced?_append hname.word (hwords word hword)] at hspaced
    split at hspaced
    · injection hspaced with hspaced
      exact hspaced.symm
    · exact nomatch hspaced
  rw [assignment?, List.flatMap_append, List.flatMap_singleton, ← List.append_assoc,
    List.findSome?_append, List.findSome?_eq_none_iff.2, Option.none_or, List.findSome?_singleton,
    bareAssignment?_assign hname hexpression]
  -- All other starts are the sign and what follows it.
  rw [List.forall_mem_append]
  constructor
  · intro start hstart
    obtain ⟨rest, hrest, hstart⟩ := List.mem_flatMap.1 hstart
    rw [hspaced (by decide) rest hrest] at hstart
    exact hsign start hstart
  · intro start hstart
    rw [hspaced (by decide) start hstart]
    exact hsign _ List.mem_cons_self

theorem simple?_assign (hname : IsName name) (hexpression : IsExpression expression) {line : Line}
    (hline : line.text = assignText name expression) :
    simple? line = some (.assign line.number name expression) := by
  have hsource : callArguments? "input.source" expression = none := by
    rw [callArguments?]
    split
    · next inner hinner =>
        obtain ⟨found, hfound, _⟩ := afterOpening?_eq_some_iff.1 hinner
        have hinput : afterWord? "input" expression ≠ none := by
          have hword : expression = "input".toList ++ '.' :: ("source".toList ++ found) := hfound
          rw [hword, afterWord?_append (by decide) (by decide) (by decide), if_pos rfl]
          exact Option.some_ne_none _
        exact absurd hexpression.noInput hinput
    · rfl
  rw [simple?, hline, fromSignal?_assign hname hexpression.toIsPhrase, destructuring?_assign hname,
    assignment?_assign hname hexpression.toIsPhrase]
  dsimp only
  rw [hsource, hexpression.noInput, hexpression.noStrategy]
  rfl

end Assignments

/-! ## Destructurings -/

section Destructurings

variable {name : String} {names : List String} {triple : Triple} {arguments : List Chars}

theorem IsOperand.isArgument (htext : IsOperand text) : IsArgument text :=
  ⟨htext.nonempty, htext.trimmed, htext.noComma⟩

theorem isCallChar_triple (triple : Triple) : ∀ c ∈ triple.name.toList, isCallChar c = true := by
  cases triple <;> decide +kernel

theorem isLineText_destructure (hnames : ∀ name ∈ names, IsName name)
    (harguments : ∀ text ∈ arguments, IsOperand text) :
    IsLineText (destructureText names triple arguments) := by
  have hopening : IsOpening (['['] ++ (commas (names.map String.toList) ++
      ([']', ' ', '=', ' '] ++ (triple.name.toList ++ ['('])))) := by
    have hsquare : IsOpening ['['] := isOpening_cons (by decide) (by decide)
    apply hsquare.append
    rw [List.forall_mem_append, List.forall_mem_append, List.forall_mem_append]
    refine ⟨forall_mem_commas (by decide) (by decide) ?_, by decide, ?_, by decide⟩
    · rw [List.forall_mem_map]
      exact fun name hname c hc => (hnames name hname).isOpening.quiet c hc
    · exact fun c hc => isQuiet_of_isCallChar (isCallChar_triple triple c hc)
  have htext := hopening.isLineText_arguments (fun text htext => (harguments text htext).inline)
    fun text htext => (harguments text htext).isUncommented
  simpa [destructureText, callText] using htext

theorem callArguments?_callText {name : String} (harguments : ∀ text ∈ arguments, IsOperand text) :
    callArguments? name (callText name.toList arguments) = some arguments := by
  have hopens : afterOpening? name (callText name.toList arguments) =
      some (commas arguments ++ [')']) := afterOpening?_eq_some_iff.2 ⟨_, rfl, rfl⟩
  rw [callArguments?, hopens]
  dsimp only
  rw [List.getLast?_concat, if_pos rfl, List.dropLast_concat,
    arguments_commas fun text htext => (harguments text htext).isArgument]

theorem fromSignal?_commas (harguments : ∀ text ∈ arguments, fromSignal? text = none) :
    fromSignal? (commas arguments ++ [')']) = none := by
  induction arguments with
  | nil => rfl
  | cons text rest ih =>
      obtain ⟨htext, hrest⟩ := List.forall_mem_cons.1 harguments
      cases rest with
      | nil => exact fromSignal?_append_cons (by decide) (by decide) (by decide) htext
      | cons second others =>
          rw [commas_cons, List.append_assoc, List.cons_append,
            fromSignal?_append_cons (by decide) (by decide) (by decide) htext, List.cons_append,
            fromSignal?_cons_of_ne (by decide), ih hrest]

theorem fromSignal?_append_of_notMem (hfront : 's' ∉ front) (back : Chars) :
    fromSignal? (front ++ back) = fromSignal? back := by
  induction front with
  | nil => rfl
  | cons c rest ih =>
      rw [List.mem_cons, not_or] at hfront
      rw [List.cons_append, fromSignal?_cons_of_ne (Ne.symm hfront.1), ih hfront.2]

theorem notMem_commas_names (hnames : ∀ name ∈ names, IsName name) (hc : isWord c = false)
    (hcomma : c ≠ ',') (hspace : c ≠ ' ') : c ∉ commas (names.map String.toList) := by
  have hall : ∀ d ∈ commas (names.map String.toList), c ≠ d := by
    apply forall_mem_commas hcomma hspace
    rw [List.forall_mem_map]
    rintro name hname d hd rfl
    exact (hnames name hname).notMem hc hd
  exact fun hmem => hall c hmem rfl

theorem fromSignal?_destructure (hnames : ∀ name ∈ names, IsName name)
    (harguments : ∀ text ∈ arguments, IsOperand text) :
    fromSignal? (destructureText names triple arguments) = none := by
  have hdot : '.' ∉ ['['] ++ (commas (names.map String.toList) ++ [']', ' ']) := by
    rw [List.mem_append, List.mem_append, not_or, not_or]
    exact ⟨by decide, notMem_commas_names hnames (by decide) (by decide) (by decide), by decide⟩
  have hname : 's' ∉ ' ' :: (triple.name.toList ++ ['(']) := by cases triple <;> decide
  have htext : destructureText names triple arguments =
      (['['] ++ (commas (names.map String.toList) ++ [']', ' '])) ++
        '=' :: ((' ' :: (triple.name.toList ++ ['('])) ++ (commas arguments ++ [')'])) := by
    simp [destructureText, callText]
  rw [htext, fromSignal?_append_cons (by decide) (by decide) (by decide)
    (fromSignal?_of_noDot hdot), fromSignal?_append_of_notMem hname,
    fromSignal?_commas fun text htext => (harguments text htext).noSignal]

/-- The names between the commas, with white space before the first one. -/
theorem map_trim_pieces (hnames : ∀ name ∈ names, IsName name) (hne : names ≠ [])
    (hfront : ∀ c ∈ front, c = ' ') :
    (pieces ',' (front ++ commas (names.map String.toList))).map trim =
      names.map String.toList := by
  induction names generalizing front with
  | nil => exact absurd rfl hne
  | cons name rest ih =>
      obtain ⟨hname, hrest⟩ := List.forall_mem_cons.1 hnames
      have hcomma : ',' ∉ front ++ name.toList := by
        rw [List.mem_append, not_or]
        exact ⟨fun hmem => absurd (hfront ',' hmem) (by decide), hname.notMem (by decide)⟩
      have hblank : ∀ c ∈ front, isBlank c = true := by
        intro c hc
        rw [hfront c hc]
        decide
      have htrimmed : IsTrimmed name.toList := isTrimmed_of_forall fun c hc =>
        not_isBlank_of_isCallChar (isCallChar_of_isWord (hname.word c hc))
      have htrim : trim (front ++ (name.toList ++ [])) = name.toList :=
        trim_padded hblank nofun htrimmed hname.nonempty
      rw [List.append_nil] at htrim
      cases rest with
      | nil =>
          rw [List.map_singleton, commas, pieces_of_notMem hcomma, List.map_singleton, htrim]
      | cons second others =>
          have hlater : (pieces ',' ([' '] ++ commas ((second :: others).map String.toList))).map
              trim = (second :: others).map String.toList :=
            ih hrest (List.cons_ne_nil _ _) (by decide)
          rw [List.map_cons] at hlater ⊢
          rw [List.map_cons, commas_cons, ← List.append_assoc, pieces_append_cons hcomma,
            List.map_cons, htrim]
          exact congrArg _ hlater

/-- The function of a destructuring is found by its name. -/
theorem findSome?_callArguments? (harguments : ∀ text ∈ arguments, IsOperand text) :
    [Triple.convergence, Triple.bands].findSome? (fun other =>
      (callArguments? other.name (callText triple.name.toList arguments)).map fun arguments =>
        (other, arguments)) = some (triple, arguments) := by
  have hfound (triple : Triple) :
      callArguments? triple.name (callText triple.name.toList arguments) = some arguments :=
    callArguments?_callText harguments
  cases triple with
  | convergence => rw [List.findSome?_cons, hfound, Option.map_some]
  | bands =>
      have hother : callArguments? Triple.convergence.name
          (callText Triple.bands.name.toList arguments) = none := rfl
      rw [List.findSome?_cons, hother, Option.map_none, List.findSome?_singleton, hfound,
        Option.map_some]

theorem destructuring?_destructure (hne : names ≠ []) (hlength : names.length ≤ 3)
    (hnames : ∀ name ∈ names, IsName name) (harguments : ∀ text ∈ arguments, IsOperand text) :
    destructuring? (destructureText names triple arguments) = some (names, triple, arguments) := by
  have hcut : cutAt ']' (commas (names.map String.toList) ++
      ']' :: ' ' :: '=' :: ' ' :: callText triple.name.toList arguments) =
      some (commas (names.map String.toList),
        ' ' :: '=' :: ' ' :: callText triple.name.toList arguments) :=
    cutAt_append (notMem_commas_names hnames (by decide) (by decide) (by decide))
  have hpieces : (pieces ',' ([] ++ commas (names.map String.toList))).map trim =
      names.map String.toList := map_trim_pieces hnames hne nofun
  have hvalid : (decide ((names.map String.toList).length ≤ 3) &&
      (names.map String.toList).all fun name => !name.isEmpty && name.all isWord) = true := by
    rw [List.length_map, decide_eq_true hlength, Bool.true_and, List.all_eq_true,
      List.forall_mem_map]
    intro name hname
    rw [List.isEmpty_eq_false_iff.2 (hnames name hname).nonempty,
      List.all_eq_true.2 (hnames name hname).word]
    rfl
  have hopening : after? ['['] (destructureText names triple arguments) =
      some (commas (names.map String.toList) ++
        ']' :: ' ' :: '=' :: ' ' :: callText triple.name.toList arguments) := rfl
  have hleft : trimLeft (' ' :: '=' :: ' ' :: callText triple.name.toList arguments) =
      '=' :: ' ' :: callText triple.name.toList arguments := rfl
  have hsign : ((after? [':', '='] ('=' :: ' ' :: callText triple.name.toList arguments)).orElse
      fun _ => after? ['='] ('=' :: ' ' :: callText triple.name.toList arguments)).map trimLeft =
        some (callText triple.name.toList arguments) := by
    cases triple <;> rfl
  have hstrings : (names.map String.toList).map String.ofList = names := by
    simp [Function.comp_def]
  rw [List.nil_append] at hpieces
  simp only [destructuring?, hopening, hcut, Option.bind_eq_bind, Option.bind_some, hpieces]
  rw [if_pos hvalid, hleft, hsign, Option.bind_some, findSome?_callArguments? harguments,
    Option.bind_some, hstrings]

theorem simple?_destructure (hne : names ≠ []) (hlength : names.length ≤ 3)
    (hnames : ∀ name ∈ names, IsName name) (harguments : ∀ text ∈ arguments, IsOperand text)
    {line : Line} (hline : line.text = destructureText names triple arguments) :
    simple? line = some (.destructure line.number names triple arguments) := by
  rw [simple?, hline, fromSignal?_destructure hnames harguments,
    destructuring?_destructure hne hlength hnames harguments]
  rfl

end Destructurings

/-! ## Signals -/

section Signals

variable {kind : SignalKind} {label : Option String}

/-- A label that a signal of a kind can have: an entry and the close of one side have one, and that
of a close says which side it closes. -/
def FitsLabel (kind : SignalKind) (label : Option String) : Prop :=
  (∀ text ∈ label, IsLabel text) ∧
    match kind, label with
    | .openLong, some _ | .openShort, some _ | .closeAny, _ => True
    | .closeLong, some text => mentions "short" text.toList = false
    | .closeShort, some text => mentions "short" text.toList = true
    | _, none => False

theorem isArgument_labelText {text : String} (htext : IsLabel text) :
    IsArgument (labelText text) where
  nonempty := List.cons_ne_nil _ _
  trimmed := by
    constructor
    · intro c hc
      injection hc with hc
      rw [← hc]
      decide
    · intro c hc
      rw [labelText, ← List.cons_append, List.getLast?_concat] at hc
      injection hc with hc
      rw [← hc]
      decide
  outside := by
    have hcontent : '"' ∉ text.toList := fun hmem => absurd (htext '"' hmem).1 (by decide)
    exact .quoted (by decide) hcontent .nil

theorem dropWhile_isQuote_append (hfront : ∀ c ∈ front, isQuote c = false) (hne : front ≠ [])
    (back : Chars) : (front ++ back).dropWhile isQuote = front ++ back := by
  obtain ⟨c, rest, rfl⟩ := List.exists_cons_of_ne_nil hne
  rw [List.cons_append, List.dropWhile_cons, hfront c List.mem_cons_self,
    if_neg Bool.false_ne_true]

theorem unquote_labelText {text : String} (htext : IsLabel text) :
    unquote (labelText text) = text.toList := by
  have hargument := isArgument_labelText htext
  rw [unquote, trim_of_isTrimmed hargument.trimmed hargument.nonempty, labelText,
    List.dropWhile_cons, if_pos (by decide)]
  by_cases hne : text.toList = []
  · rw [hne]
    rfl
  · have hlabel : ∀ c ∈ text.toList, isQuote c = false := fun c hc => (htext c hc).1
    have hback : (text.toList.reverse ++ []).dropWhile isQuote = text.toList.reverse ++ [] :=
      dropWhile_isQuote_append (fun c hc => hlabel c (List.mem_reverse.1 hc))
        (List.reverse_ne_nil_iff.2 hne) []
    rw [List.append_nil] at hback
    rw [dropWhile_isQuote_append hlabel hne, List.reverse_append, List.reverse_singleton,
      List.singleton_append, List.dropWhile_cons, if_pos (by decide), hback, List.reverse_reverse]

theorem isCallChar_directionFor {direction : Chars}
    (hdirection : directionFor kind = some direction) : ∀ c ∈ direction, isCallChar c = true := by
  cases kind with
  | openLong => injection hdirection with hdirection; rw [← hdirection]; decide +kernel
  | openShort => injection hdirection with hdirection; rw [← hdirection]; decide +kernel
  | _ => exact nomatch hdirection

theorem isArgument_of_isCallChar (hne : text ≠ []) (htext : ∀ c ∈ text, isCallChar c = true) :
    IsArgument text where
  nonempty := hne
  trimmed := isTrimmed_of_forall fun c hc => not_isBlank_of_isCallChar (htext c hc)
  outside := .of_forall fun c hc => by
    refine ⟨.of_isCallChar (htext c hc), ?_⟩
    rintro rfl
    exact absurd (htext ',' hc) (by decide)

/-- What holds for labels in quotes and for words holds for the arguments of a signal. -/
theorem forall_mem_argumentsFor {p : Chars → Prop} (hlabel : ∀ text ∈ label, p (labelText text))
    (hword : ∀ word : Chars, word ≠ [] → (∀ c ∈ word, isCallChar c = true) → p word) :
    ∀ text ∈ argumentsFor kind label, p text := by
  intro text htext
  rcases List.mem_append.1 htext with hmem | hmem
  · obtain ⟨shown, hshown, rfl⟩ := Option.map_eq_some_iff.1 (Option.mem_toList.1 hmem)
    exact hlabel shown hshown
  · have hdirection := Option.mem_toList.1 hmem
    refine hword text ?_ (isCallChar_directionFor hdirection)
    rintro rfl
    cases kind <;> exact nomatch hdirection

theorem isArgument_argumentsFor (hlabel : ∀ text ∈ label, IsLabel text) :
    ∀ text ∈ argumentsFor kind label, IsArgument text :=
  forall_mem_argumentsFor (fun text htext => isArgument_labelText (hlabel text htext))
    fun _ => isArgument_of_isCallChar

theorem beforeComment_content {content : Chars} (hcontent : mark ∉ content) :
    beforeComment (some mark) content = content := by
  induction content with
  | nil => rw [beforeComment]
  | cons c rest ih =>
      obtain ⟨hc, hrest⟩ := List.ne_and_not_mem_of_not_mem_cons hcontent
      rw [beforeComment, if_neg hc.symm, ih hrest]

theorem isUncommented_labelText {text : String} (htext : IsLabel text) :
    IsUncommented (labelText text) where
  closed := foldl_quoteAfter_outside (isArgument_labelText htext).outside
  whole := by
    have hcontent : '"' ∉ text.toList := fun hmem => absurd (htext '"' hmem).1 (by decide)
    have hlast : beforeComment (some '"') ['"'] = ['"'] := rfl
    rw [labelText, beforeComment, if_pos (by decide),
      beforeComment_append (beforeComment_content hcontent) (by decide),
      foldl_quoteAfter_content hcontent, hlast]

theorem isOpening_call (call : SignalCall) : IsOpening (call.name.toList ++ ['(']) := by
  have hname : IsOpening call.name.toList := by
    refine ⟨?_, fun c hc => ?_, fun c hc => isQuiet_of_isCallChar (call.isCallChar_of_mem c hc)⟩
    · obtain ⟨rest, hname⟩ := call.exists_name
      rw [hname]
      exact List.cons_ne_nil _ _
    · exact not_isBlank_of_isCallChar (call.isCallChar_of_mem c (List.mem_of_head? hc))
  exact hname.append (by decide)

theorem isLineText_signal (hlabel : ∀ text ∈ label, IsLabel text) :
    IsLineText (signalText kind label) := by
  have htext : IsLineText (((callFor kind label).name.toList ++ ['(']) ++
      (commas (argumentsFor kind label) ++ [')'])) := by
    apply (isOpening_call (callFor kind label)).isLineText_arguments
    · refine forall_mem_argumentsFor (fun text htext => ?_) fun word _ hword c hc =>
        (isQuiet_of_isCallChar (hword c hc)).2
      rw [labelText, List.forall_mem_cons, List.forall_mem_append]
      exact ⟨by decide, fun c hc => (hlabel text htext c hc).2, by decide⟩
    · exact forall_mem_argumentsFor (fun text htext => isUncommented_labelText (hlabel text htext))
        fun word _ hword => .of_forall fun c hc => (isQuiet_of_isCallChar (hword c hc)).1
  rwa [List.append_assoc] at htext

theorem fromSignal?_signal :
    fromSignal? (signalText kind label) = some (signalText kind label) := by
  obtain ⟨rest, hname⟩ := (callFor kind label).exists_name
  have hopens : opensSignal (signalText kind label) = true :=
    opensSignal_iff.2 ⟨callFor kind label, _, _, rfl, rfl⟩
  rw [signalText, callText, hname, List.cons_append] at hopens ⊢
  rw [fromSignal?, if_pos hopens]

theorem find?_callFor (call : SignalCall) :
    SignalCall.all.find? (fun form => form.name == call.name) = some call := by
  cases call <;> rfl

theorem kind_callFor (hlabel : FitsLabel kind label) :
    (callFor kind label).kind (argumentsFor kind label)
      ((label.map String.toList).getD []) = kind := by
  obtain ⟨_, hfits⟩ := hlabel
  cases label with
  | none => cases kind <;> first | exact hfits.elim | rfl
  | some text =>
      cases kind with
      | openLong => rfl
      | openShort => rfl
      | closeLong => exact if_neg (by simp [hfits])
      | closeShort => exact if_pos hfits
      | closeAny => rfl

theorem head?_argumentsFor (hlabel : FitsLabel kind label) :
    (argumentsFor kind label).head?.map unquote = label.map String.toList := by
  obtain ⟨htexts, hfits⟩ := hlabel
  cases label with
  | none => cases kind <;> first | exact hfits.elim | rfl
  | some text => exact congrArg some (unquote_labelText (htexts text rfl))

theorem signal?_signalText (hlabel : FitsLabel kind label) :
    signal? (signalText kind label) = some (kind, label) := by
  have htext : IsLineText (signalText kind label) := isLineText_signal hlabel.1
  have hname : isCallName (callFor kind label).name.toList = true := by
    cases callFor kind label <;> decide +kernel
  have hcall : call? (signalText kind label) =
      some ⟨(callFor kind label).name, argumentsFor kind label⟩ := by
    rw [signalText, call?_callText hname (isArgument_argumentsFor hlabel.1), String.ofList_toList]
  have hstrings : (label.map String.toList).map String.ofList = label := by
    simp [Function.comp_def]
  simp only [signal?, fromSignal?_signal, Option.bind_eq_bind, Option.bind_some,
    trim_of_isTrimmed htext.trimmed htext.nonempty, hcall, find?_callFor, head?_argumentsFor hlabel,
    kind_callFor hlabel, hstrings]

theorem simple?_signal (hlabel : FitsLabel kind label) {line : Line}
    (hline : line.text = signalText kind label) :
    simple? line = some (.signal line.number kind label) := by
  rw [simple?, hline, fromSignal?_signal, signal?_signalText hlabel]
  rfl

end Signals

/-! ## Heads -/

section Heads

variable {condition : Chars}

theorem cleanCondition_of_isCondition (hcondition : IsCondition condition) :
    cleanCondition condition = condition := by
  have hright : trimRight condition = condition := trimRight_of_last hcondition.trimmed.last
  have hdrop {ending : String} (hending : ending ∈ ["then", ":", "\x7b"]) :
      after? ending.toList.reverse condition.reverse = none := by
    rw [Option.eq_none_iff_forall_ne_some]
    intro rest hrest
    apply hcondition.bare ending hending
    rw [after?_eq_some_iff] at hrest
    exact List.reverse_prefix.1 ⟨rest, hrest.symm⟩
  rw [cleanCondition]
  simp only [hright, hdrop, List.mem_cons, true_or, or_true, Option.map_none, Option.getD_none,
    Option.orElse_none]
  exact trim_of_isTrimmed hcondition.trimmed hcondition.nonempty

theorem isOpening_if : IsOpening ifText := isOpening_cons (by decide) (by decide)

theorem isOpening_elseIf : IsOpening elseIfText := isOpening_cons (by decide) (by decide)

theorem isLineText_else : IsLineText elseText :=
  ⟨by decide, isTrimmed_of_forall (by decide), by decide, rfl⟩

theorem ifCondition?_if (hcondition : IsCondition condition) :
    ifCondition? (ifText ++ condition) = some condition := by
  have hword : afterWord? "if" (ifText ++ condition) = some (' ' :: condition) := rfl
  have htrim : trimLeft ([' '] ++ condition) = condition :=
    dropWhile_blank (by decide) hcondition.trimmed.head
  rw [ifCondition?, hword, Option.map_some, ← List.singleton_append, htrim]

theorem elseIfCondition?_elseIf (hcondition : IsCondition condition) :
    elseIfCondition? (elseIfText ++ condition) = some condition := by
  have hspaced : afterSpaced? "else" (elseIfText ++ condition) = some (ifText ++ condition) := rfl
  rw [elseIfCondition?, hspaced, Option.bind_some, ifCondition?_if hcondition]

/-- A text that starts a statement and does not go on with a chain. -/
structure IsStart (text : Chars) : Prop where
  noElseIf : elseIfCondition? text = none
  noElse : isElse text = false

theorem isStart_cons {c : Char} (hc : c ≠ 'e') (rest : Chars) : IsStart (c :: rest) := by
  have hnone : after? "else".toList (c :: rest) = none := after?_cons_of_ne hc _ _
  constructor
  · rw [elseIfCondition?, afterSpaced?, hnone]
    rfl
  · rw [isElse, hnone]
    rfl

theorem isStart_if (condition : Chars) : IsStart (ifText ++ condition) :=
  isStart_cons (by decide) _

theorem isStart_destructure (names : List String) (triple : Triple) (arguments : List Chars) :
    IsStart (destructureText names triple arguments) := isStart_cons (by decide) _

theorem isStart_signal (kind : SignalKind) (label : Option String) :
    IsStart (signalText kind label) := by
  obtain ⟨rest, hname⟩ := (callFor kind label).exists_name
  rw [signalText, callText, hname]
  exact isStart_cons (by decide) _

/-- The sign of an assignment stands behind its name, even if the name is `else`. -/
theorem isStart_assign {name : String} (hname : IsName name) (expression : Chars) :
    IsStart (assignText name expression) := by
  constructor
  · rw [elseIfCondition?, assignText, afterSpaced?_append hname.word (by decide)]
    split <;> rfl
  · rw [isElse]
    split
    · next rest hrest =>
        have htext : assignText name expression =
            (name.toList ++ [' ']) ++ '=' :: ' ' :: expression := by
          rw [assignText, List.append_assoc]
          rfl
        rw [htext, after?_append_cons (by decide), Option.map_map, Option.map_eq_some_iff] at hrest
        obtain ⟨found, _, rfl⟩ := hrest
        rw [Function.comp_apply, trimLeft_append_cons (by decide)]
        cases trimLeft found with
        | nil => rfl
        | cons c others => simp
    · rfl

theorem ifCondition?_assign {name : String} (hname : IsName name) (hif : name ≠ "if")
    (expression : Chars) : ifCondition? (assignText name expression) = none := by
  have hother : name.toList ≠ "if".toList := fun heq => hif (String.toList_injective heq)
  rw [ifCondition?, assignText, afterWord?_append hname.word (by decide) (by decide),
    if_neg hother, Option.map_none]

theorem ifCondition?_cons {c : Char} (hc : c ≠ 'i') (rest : Chars) :
    ifCondition? (c :: rest) = none := by
  have hnone : after? "if".toList (c :: rest) = none := after?_cons_of_ne hc _ _
  rw [ifCondition?, afterWord?, hnone]
  rfl

theorem ifCondition?_destructure (names : List String) (triple : Triple) (arguments : List Chars) :
    ifCondition? (destructureText names triple arguments) = none := ifCondition?_cons (by decide) _

theorem ifCondition?_signal (kind : SignalKind) (label : Option String) :
    ifCondition? (signalText kind label) = none := by
  obtain ⟨rest, hname⟩ := (callFor kind label).exists_name
  rw [signalText, callText, hname]
  exact ifCondition?_cons (by decide) _

end Heads

end Backtest.Script
