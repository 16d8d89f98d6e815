import Backtest.Proofs.Expr.Binding
import Backtest.Proofs.Expr.Leaf
import Backtest.Proofs.Input.Readback
import Backtest.Proofs.Script.PrintedLine
import Backtest.Script.Run

/-!
# Source inputs

The line `name = input.source(arguments)` is read twice.  The reader of declarations finds its
default by keyword or by position and drops the quotes around it; the reader of statements takes the
first argument as it stands.  So the line binds its name to the series of its default if and only if
that default is its first argument (`sourceLine_binds_iff`): it is where the default stands first,
bare, and no later keyword replaces it.
-/

namespace Backtest.Script

open Text Backtest.Expr Backtest.Input

/-! ## The line -/

/-- The right side of the declaration of a source input. -/
def sourceText (arguments : Chars) : Chars := "input.source(".toList ++ (arguments ++ [')'])

/-- `name = input.source(arguments)` -/
def sourceLine (name : String) (arguments : Chars) : Chars := assignText name (sourceText arguments)

/-- A declaration that can stand on a line of its own: its quotes and brackets are closed, and it
holds neither a comment nor a tab nor a signal call. -/
structure IsSourceLine (name : String) (arguments : Chars) : Prop where
  isName : IsName name
  notIf : name ≠ "if"
  right : IsPhrase (sourceText arguments)

variable {name price : String} {arguments : Chars}

theorem parse_line {text : Chars} (htext : IsLineText text) (hif : ifCondition? text = none) :
    parse text = (simple? ⟨1, 0, text⟩).toList := by
  have hread : Line.ofText? 1 text = some ⟨1, 0, text⟩ := ofText?_indented htext 1 0
  have hlines : contentLines text = [⟨1, 0, text⟩] := by
    rw [contentLines, lines_oneLine (fun c hc => (htext.inline c hc).1) htext.nonempty,
      List.zipIdx_singleton, List.filterMap_cons, hread]
    rfl
  rw [parse, hlines, Block.ofLines, hif]
  dsimp only
  rw [Block.ofLines, List.append_nil]

theorem callArguments?_sourceText (arguments : Chars) :
    callArguments? "input.source" (sourceText arguments) = some (Expr.arguments arguments) := by
  have hopens : afterOpening? "input.source" (sourceText arguments) = some (arguments ++ [')']) :=
    afterOpening?_eq_some_iff.2 ⟨'(' :: (arguments ++ [')']), rfl, rfl⟩
  rw [callArguments?, hopens]
  dsimp only
  rw [List.getLast?_concat, if_pos rfl, List.dropLast_concat]

/-- The reader of statements takes the first argument as it stands. -/
theorem parse_sourceLine (hline : IsSourceLine name arguments) :
    parse (sourceLine name arguments) =
      ((Expr.arguments arguments).head?.map fun first => .assign 1 name first).toList := by
  rw [sourceLine, parse_line (isLineText_assign hline.isName hline.right)
    (ifCondition?_assign hline.isName hline.notIf _), simple?,
    fromSignal?_assign hline.isName hline.right, destructuring?_assign hline.isName,
    assignment?_assign hline.isName hline.right]
  dsimp only
  rw [callArguments?_sourceText]
  rfl

/-! ## The declaration -/

variable {α : Type} [Arith α]

/-- A script declares a source input of a name with a default. -/
def DeclaresSource (α : Type) [Arith α] (code : Chars) (name default : String) : Prop :=
  ∃ param ∈ (params code : List (Param α)), param.name = name ∧ param.kind = .source ∧
    param.default = .text default

/-- The names of the price series. -/
def priceNames : List String := Environment.reserved.take 8

/-- Arguments without a closing bracket are all arguments of the declaration. -/
theorem params_sourceLine (hname : IsName name) (hclosed : ')' ∉ arguments) :
    params (sourceLine name arguments) = [(Param.ofDeclaration
      ⟨name.toList, " = input.source(".toList, some .source, arguments⟩ : Param α)] := by
  have hheading : heading? " = input.source".toList = some (some .source) := by decide
  have hproper : Declaration.Proper
      ⟨name.toList, " = input.source(".toList, some .source, arguments⟩ :=
    ⟨⟨hname.nonempty, hname.word⟩, ⟨" = input.source".toList, rfl, by decide, hheading⟩, hclosed⟩
  have htext : sourceLine name arguments =
      name.toList ++ " = input.source(".toList ++ arguments ++ ')' :: [] := by
    rw [List.append_assoc, List.append_assoc]
    rfl
  rw [htext]
  exact (params_append hproper []).trans (congrArg _ params_nil)

theorem trim_eq_nil_of_argumentsFrom {state : Nesting} {before text : Chars}
    (hnone : argumentsFrom state before text = []) : trim (before.reverse ++ text) = [] := by
  induction text generalizing state before with
  | nil =>
      rw [argumentsFrom] at hnone
      rw [List.append_nil]
      by_contra hne
      rw [List.isEmpty_eq_false_iff.2 hne] at hnone
      cases hnone
  | cons c rest ih =>
      rw [argumentsFrom] at hnone
      split at hnone
      · cases hnone
      · have hlater := ih hnone
        rwa [List.reverse_cons, List.append_assoc, List.singleton_append] at hlater

/-- A declaration without arguments has no price as its default. -/
theorem arguments_ne_nil (hname : IsName name) (hprice : price ∈ priceNames)
    (hdeclares : DeclaresSource α (sourceLine name arguments) name price) :
    Expr.arguments arguments ≠ [] := by
  intro hnone
  have hblank : trim arguments = [] := trim_eq_nil_of_argumentsFrom hnone
  have hclosed : ')' ∉ arguments := by
    intro hmem
    have hkept := mem_trim hmem (by decide)
    rw [hblank] at hkept
    exact nomatch hkept
  obtain ⟨param, hparam, _, _, hdefault⟩ := hdeclares
  rw [params_sourceLine hname hclosed] at hparam
  have hempty : param.default = .text "" := by
    rw [List.mem_singleton.1 hparam, Param.ofDeclaration]
    dsimp only
    rw [argumentRecord_eq, hnone]
    rfl
  rw [hempty] at hdefault
  injection hdefault with hdefault
  rw [← hdefault] at hprice
  exact absurd hprice (by decide)

/-- A text without quotes is its own content. -/
theorem cleanText_of_unquoted {text : Chars} (htext : ∀ c ∈ text, isQuote c = false) :
    cleanText text = trim text := by
  have hinner : ∀ c ∈ trim text, isQuote c = false := fun c hc =>
    htext c ((trim_isInfix text).subset hc)
  have htrimmed := trim_trim text
  rw [cleanText]
  cases hchars : trim text with
  | nil => rfl
  | cons c rest =>
      rw [hchars] at hinner htrimmed
      obtain ⟨last, hlast⟩ := Option.isSome_iff_exists.1 (List.getLast?_isSome.2
        (List.cons_ne_nil c rest))
      dsimp only
      rw [hinner c List.mem_cons_self, if_neg Bool.false_ne_true, hlast]
      dsimp only
      rw [hinner last (List.mem_of_getLast? hlast), if_neg Bool.false_ne_true, htrimmed]

/-- The default is given by position: the first argument has neither keyword nor quotes, and no
keyword gives another default. -/
structure GivenFirst (parts : List Chars) : Prop where
  bare : ∀ first ∈ parts.head?, keyword? first = none ∧ ∀ c ∈ first, isQuote c = false
  kept : NoDefaultKey parts.tail

/-- A default that is given by position is the first argument. -/
theorem head?_of_givenFirst (hname : IsName name) (hprice : price ∈ priceNames)
    (hdeclares : DeclaresSource α (sourceLine name arguments) name price)
    (hclosed : ')' ∉ arguments) (hgiven : GivenFirst (Expr.arguments arguments)) :
    (Expr.arguments arguments).head? = some price.toList := by
  obtain ⟨first, rest, hparts⟩ :=
    List.exists_cons_of_ne_nil (arguments_ne_nil hname hprice hdeclares)
  rw [hparts] at hgiven ⊢
  obtain ⟨hkey, hquotes⟩ := hgiven.bare first rfl
  have hrecord : (argumentRecord arguments).get? "defval" = some first := by
    rw [argumentRecord_eq, hparts]
    exact (recordOf_first hkey hkey hgiven.kept).old
  have hfirst : trim first = first :=
    trim_of_mem_arguments (hparts ▸ List.mem_cons_self : first ∈ Expr.arguments arguments)
  obtain ⟨param, hparam, _, _, hdefault⟩ := hdeclares
  rw [params_sourceLine hname hclosed] at hparam
  rw [List.mem_singleton.1 hparam, Param.ofDeclaration] at hdefault
  dsimp only at hdefault
  rw [hrecord, Option.getD_some, Option.getD_some, defaultOf, cleanText_of_unquoted hquotes,
    hfirst] at hdefault
  injection hdefault with hdefault
  rw [← hdefault, List.head?_cons, String.toList_ofList]

/-! ## The run -/

/-- A script is one assignment of a price to a name, and in each run whose parameters leave the
price alone the name stands for the series of the price. -/
structure BindsPrice (α : Type) [Arith α] (code : Chars) (name price : String) : Prop where
  reads : parse code = [.assign 1 name price.toList]
  runs : ∀ (prices : Prices α) (params : Params α), Environment.Bindable params →
    price ∉ Record.names params → ∃ (final : Run α) (xs : Series α),
      execute (parse code) prices params = .ok final ∧ final.unresolved = [] ∧
      (Environment.ofPrices prices).value? price = some (.series xs) ∧
      final.env.value? name = some (.series xs)

theorem exists_price (prices : Prices α) (hprice : price ∈ priceNames) :
    ∃ xs, (Environment.ofPrices prices).value? price = some (.series xs) := by
  simp only [priceNames, Environment.reserved, List.take, List.mem_cons, List.not_mem_nil,
    or_false] at hprice
  rcases hprice with rfl | rfl | rfl | rfl | rfl | rfl | rfl | rfl <;> exact ⟨_, rfl⟩

theorem isIdentifier_price (hprice : price ∈ priceNames) :
    isIdentifier price.toList = true ∧ price.toList ∉ ["true".toList, "false".toList] := by
  have hall : ∀ price ∈ priceNames, isIdentifier price.toList = true ∧
      price.toList ∉ ["true".toList, "false".toList] := by decide
  exact hall price hprice

theorem bindsPrice_of_parse {code : Chars} (hprice : price ∈ priceNames)
    (hparse : parse code = [.assign 1 name price.toList]) : BindsPrice α code name price := by
  refine ⟨hparse, fun prices params hparams hfree => ?_⟩
  obtain ⟨env, henv⟩ := Environment.exists_withParams (Environment.ofPrices prices) hparams
  obtain ⟨xs, hxs⟩ := exists_price prices hprice
  obtain ⟨hidentifier, hvalue⟩ := isIdentifier_price hprice
  have hfound : evaluate? ⟨env, prices.length⟩ price.toList = .ok (some (.series xs)) := by
    rw [evaluate?_identifier hidentifier hvalue, String.ofList_toList]
    dsimp only
    rw [Environment.value?_withParams_of_not_mem henv hfree, hxs]
  refine ⟨⟨prices.length, env.bind name (.series xs), [], [], [], []⟩, xs, ?_, rfl, hxs, ?_⟩
  · have hstart : Run.start prices params = .ok ⟨prices.length, env, [], [], [], []⟩ := by
      rw [Run.start, Environment.start, henv]
      rfl
    rw [hparse, execute, hstart]
    change (Run.assign _ 1 name price.toList >>= fun next => Run.block none next []) = _
    rw [Run.assign, Run.context, hfound]
    rfl
  · change Environment.value? (env.bind name (.series xs)) name = _
    rw [Environment.bind, Environment.value?_put, if_pos rfl]

/-- A declared source input is one assignment of its first argument.  It binds its name to the
series of the default if and only if that argument is the default, as it is where the default is
given by position. -/
theorem sourceLine_binds_iff (hline : IsSourceLine name arguments) (hprice : price ∈ priceNames)
    (hdeclares : DeclaresSource α (sourceLine name arguments) name price) :
    (∃ first, parse (sourceLine name arguments) = [.assign 1 name first]) ∧
      (BindsPrice α (sourceLine name arguments) name price ↔
        (Expr.arguments arguments).head? = some price.toList) ∧
      (')' ∉ arguments → GivenFirst (Expr.arguments arguments) →
        BindsPrice α (sourceLine name arguments) name price) := by
  have hparse := parse_sourceLine hline
  have hbinds (hhead : (Expr.arguments arguments).head? = some price.toList) :
      BindsPrice α (sourceLine name arguments) name price := by
    rw [hhead] at hparse
    exact bindsPrice_of_parse hprice hparse
  obtain ⟨first, rest, hparts⟩ :=
    List.exists_cons_of_ne_nil (arguments_ne_nil hline.isName hprice hdeclares)
  refine ⟨⟨first, by rw [hparse, hparts]; rfl⟩, ⟨fun hreads => ?_, hbinds⟩, ?_⟩
  · have hassign := hreads.reads
    rw [hparse, hparts] at hassign
    injection hassign with hassign
    injection hassign with _ _ hfirst
    rw [hparts, hfirst]
    rfl
  · intro hclosed hgiven
    exact hbinds (head?_of_givenFirst hline.isName hprice hdeclares hclosed hgiven)

theorem outside_inputSource : Outside (fun _ => True) "input.source".toList :=
  .of_forall (by decide)

/-- A default by position with a title behind it. -/
theorem sourceLine_binds_titled :
    sourceLine "src" "hl2, \"Source\"".toList = "src = input.source(hl2, \"Source\")".toList ∧
      DeclaresSource Float (sourceLine "src" "hl2, \"Source\"".toList) "src" "hl2" ∧
      BindsPrice Float (sourceLine "src" "hl2, \"Source\"".toList) "src" "hl2" := by
  have hclosed : Outside (fun _ => True) (sourceText "hl2, \"Source\"".toList) := by
    have hdefault : Outside (fun _ => True) "hl2, ".toList := .of_forall (by decide)
    have htitle : '"' ∉ "Source".toList := by decide
    have hinner : Outside (fun _ => True) "hl2, \"Source\"".toList :=
      hdefault.append (.quoted (by decide) htitle .nil)
    exact outside_inputSource.append (.round hinner .nil)
  have hline : IsSourceLine "src" "hl2, \"Source\"".toList := {
    isName := ⟨by decide, by decide⟩
    notIf := by decide
    right := { (by decide : IsLineText (sourceText "hl2, \"Source\"".toList)) with
      closed := hclosed
      noSignal := by decide } }
  have hdeclares :
      DeclaresSource Float (sourceLine "src" "hl2, \"Source\"".toList) "src" "hl2" := by
    rw [DeclaresSource, params_sourceLine hline.isName (by decide)]
    exact ⟨_, List.mem_singleton_self _, rfl, rfl, congrArg Scalar.text (by decide)⟩
  have hparts : Expr.arguments "hl2, \"Source\"".toList =
      ["hl2".toList, "\"Source\"".toList] := by
    decide
  have htitle : keyword? "\"Source\"".toList = none := by decide
  have hgiven : GivenFirst (Expr.arguments "hl2, \"Source\"".toList) := by
    rw [hparts]
    refine ⟨by decide, List.forall_mem_singleton.2 fun value hkey => ?_⟩
    rw [htitle] at hkey
    exact nomatch hkey
  exact ⟨rfl, hdeclares,
    (sourceLine_binds_iff hline (by decide) hdeclares).2.2 (by decide) hgiven⟩

/-- A default behind its keyword is declared, but the keyword is read as a part of the expression. -/
theorem keyword_stays :
    sourceLine "src" "defval=high".toList = "src = input.source(defval=high)".toList ∧
      DeclaresSource Float (sourceLine "src" "defval=high".toList) "src" "high" ∧
      parse (sourceLine "src" "defval=high".toList) = [.assign 1 "src" "defval=high".toList] ∧
      ¬ BindsPrice Float (sourceLine "src" "defval=high".toList) "src" "high" := by
  have hinner : Outside (fun _ => True) "defval=high".toList := .of_forall (by decide)
  have hline : IsSourceLine "src" "defval=high".toList := {
    isName := ⟨by decide, by decide⟩
    notIf := by decide
    right := { (by decide : IsLineText (sourceText "defval=high".toList)) with
      closed := outside_inputSource.append (.round hinner .nil)
      noSignal := by decide } }
  have hparse : parse (sourceLine "src" "defval=high".toList) =
      [.assign 1 "src" "defval=high".toList] := parse_sourceLine hline
  refine ⟨rfl, ?_, hparse, fun hbinds => ?_⟩
  · rw [DeclaresSource, params_sourceLine hline.isName (by decide)]
    exact ⟨_, List.mem_singleton_self _, rfl, rfl, congrArg Scalar.text (by decide)⟩
  · have hreads := hbinds.reads
    rw [hparse] at hreads
    injection hreads with hreads
    injection hreads with _ _ hexpression
    exact absurd hexpression (by decide)

end Backtest.Script
