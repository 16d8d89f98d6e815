import Backtest.Proofs.Expr.Leaf
import Backtest.Proofs.Script.Interpretation
import Backtest.Proofs.Script.PrintedLine

/-!
# Conditions that are names

A script binds a name to truth values and tests it: `if name`, or with one of the decorations that
a condition may have behind it.  Taking the decorations away leaves the name
(`cleanCondition_decorated`), unless it stands bare and ends in the letters of `then`, which are
taken for the decoration.  So the signal under the `if` is given exactly where the name is true
(`run_guarded`).
-/

namespace Backtest.Script

open Text Backtest.Expr

/-! ## Decorations -/

/-- What may stand behind a condition. -/
inductive Decoration where
  | bare
  | word
  | colon
  | brace
  deriving DecidableEq

def Decoration.text : Decoration → Chars
  | .bare => []
  | .word => " then".toList
  | .colon => [':']
  | .brace => [' ', '\x7b']

section Decorations

variable {text : Chars}

/-- The head of an `if` with a decorated condition. -/
def headText (condition : Chars) (decoration : Decoration) : Chars :=
  ifText ++ (condition ++ decoration.text)

theorem ifCondition?_headText (hne : text ≠ []) (htext : IsTrimmed text) (decoration : Decoration) :
    ifCondition? (headText text decoration) = some (text ++ decoration.text) := by
  have hword : afterWord? "if" (headText text decoration) =
      some (' ' :: (text ++ decoration.text)) := rfl
  have htrim : trimLeft ([' '] ++ (text ++ decoration.text)) = text ++ decoration.text := by
    refine dropWhile_blank (by decide) fun c hc => htext.head c ?_
    rwa [List.head?_append_of_ne_nil _ hne] at hc
  rw [ifCondition?, hword, Option.map_some, ← List.singleton_append, htrim]

theorem trimRight_decorated (htext : IsTrimmed text) (decoration : Decoration) :
    trimRight (text ++ decoration.text) = text ++ decoration.text := by
  apply trimRight_of_last
  cases decoration with
  | bare =>
      rw [Decoration.text, List.append_nil]
      exact htext.last
  | word | colon | brace =>
      intro c hc
      rw [List.getLast?_append_of_ne_nil _ (by decide)] at hc
      injection hc with hc
      exact hc ▸ rfl

/-- Behind a text without a decoration of its own, exactly the decoration is taken away. -/
theorem cleanCondition_decorated (hne : text ≠ []) (htext : IsTrimmed text)
    (hmarks : text.getLast? ≠ some ':' ∧ text.getLast? ≠ some '\x7b') {decoration : Decoration}
    (hthen : decoration = .bare → ¬ "then".toList <:+ text) :
    cleanCondition (text ++ decoration.text) = text := by
  have hright : trimRight text = text := trimRight_of_last htext.last
  have htrim : trim text = text := trim_of_isTrimmed htext hne
  have hspace : trimRight (text ++ [' ']) = text :=
    (trimRight_append_blank (by decide) text).trans hright
  have hmark {mark : Char} (hlast : text.getLast? ≠ some mark) :
      after? [mark] text.reverse = none := by
    rw [Option.eq_none_iff_forall_ne_some]
    intro rest hrest
    apply hlast
    rw [← List.head?_reverse, after?_eq_some_iff.1 hrest]
    rfl
  have hcolon : after? ":".toList.reverse text.reverse = none := hmark hmarks.1
  have hbrace : after? "\x7b".toList.reverse text.reverse = none := hmark hmarks.2
  have hwhole := trimRight_decorated htext decoration
  simp only [cleanCondition]
  rw [hwhole, List.reverse_append]
  cases decoration with
  | bare =>
      have hword : after? "then".toList.reverse text.reverse = none := by
        rw [Option.eq_none_iff_forall_ne_some]
        intro rest hrest
        refine hthen rfl (List.reverse_prefix.1 ⟨rest, ?_⟩)
        exact (after?_eq_some_iff.1 hrest).symm
      rw [Decoration.text, List.append_nil, List.reverse_nil, List.nil_append, hword,
        Option.map_none, Option.getD_none, hright, hcolon, hbrace]
      exact htrim
  | word =>
      have hword : after? "then".toList.reverse
          (" then".toList.reverse ++ text.reverse) = some (' ' :: text.reverse) := rfl
      have hback : (' ' :: text.reverse).reverse = text ++ [' '] := by simp
      rw [Decoration.text, hword, Option.map_some, Option.getD_some, hback, hspace, hright, hcolon,
        hbrace]
      exact htrim
  | colon =>
      have hword : after? "then".toList.reverse ([':'].reverse ++ text.reverse) = none := rfl
      have hmark : after? ":".toList.reverse ([':'].reverse ++ text.reverse) =
          some text.reverse := rfl
      rw [Decoration.text] at hwhole ⊢
      rw [hword, Option.map_none, Option.getD_none, hwhole, List.reverse_append, hmark,
        Option.map_some, List.reverse_reverse, hright]
      exact htrim
  | brace =>
      have hword : after? "then".toList.reverse
          ([' ', '\x7b'].reverse ++ text.reverse) = none := rfl
      have hfirst : after? ":".toList.reverse
          ([' ', '\x7b'].reverse ++ text.reverse) = none := rfl
      have hsecond : after? "\x7b".toList.reverse ([' ', '\x7b'].reverse ++ text.reverse) =
          some (' ' :: text.reverse) := rfl
      have hback : (' ' :: text.reverse).reverse = text ++ [' '] := by simp
      rw [Decoration.text] at hwhole ⊢
      rw [hword, Option.map_none, Option.getD_none, hwhole, List.reverse_append, hfirst, hsecond,
        Option.map_some, hback, hspace]
      exact htrim

end Decorations

/-! ## The statements -/

/-- A line that assigns an expression to a name. -/
structure Assigns (line : Line) (name : String) (expression : Chars) : Prop where
  notIf : ifCondition? line.text = none
  reads : simple? line = some (.assign line.number name expression)

/-- A line with a signal call. -/
structure Signals (line : Line) (kind : SignalKind) (label : Option String) : Prop where
  notIf : ifCondition? line.text = none
  reads : signal? line.text = some (kind, label)

variable {name : String} {expression : Chars} {decoration : Decoration} {kind : SignalKind}
variable {label : Option String}

theorem Signals.simple?_eq {line : Line} (hline : Signals line kind label) :
    simple? line = some (.signal line.number kind label) := by
  have hfound : (fromSignal? line.text).isSome = true := by
    cases hsignal : fromSignal? line.text with
    | some rest => rfl
    | none =>
        have hreads := hline.reads
        rw [signal?, hsignal] at hreads
        cases hreads
  rw [simple?, if_pos hfound, hline.reads]
  rfl

/-- An assignment, the head of an `if` and a signal call that is indented more deeply. -/
structure IsGuarded (code : String) (assignment head call : Line) : Prop where
  lines : contentLines code.toList = [assignment, head, call]
  indented : head.indent < call.indent

theorem IsGuarded.parse_eq {code : String} {assignment head call : Line}
    (hcode : IsGuarded code assignment head call)
    (hassignment : Assigns assignment name expression)
    (hhead : head.text = headText name.toList decoration) (hname : isIdentifier name.toList = true)
    (hthen : decoration = .bare → ¬ "then".toList <:+ name.toList)
    (hcall : Signals call kind label) :
    parse code.toList = [.assign assignment.number name expression,
      .chain head.number [.mk head.number name.toList [.signal call.number kind label]] []] := by
  have hword := isWord_of_isIdentifier hname
  have hne : name.toList ≠ [] := by
    intro hnil
    rw [hnil] at hname
    exact nomatch hname
  have htrimmed : IsTrimmed name.toList := isTrimmed_of_forall fun c hc =>
    not_isBlank_of_isCallChar (isCallChar_of_isWord (hword c hc))
  have hlast {mark : Char} (hmark : isWord mark = false) : name.toList.getLast? ≠ some mark := by
    intro hmem
    have hchar := hword mark (List.mem_of_getLast? hmem)
    rw [hmark] at hchar
    exact nomatch hchar
  have hcondition : ifCondition? head.text = some (name.toList ++ decoration.text) := by
    rw [hhead, ifCondition?_headText hne htrimmed]
  have hclean := cleanCondition_decorated hne htrimmed
    ⟨hlast (by decide), hlast (by decide)⟩ hthen
  have howned : Block.owned head.indent [call] = [call] := by
    rw [Block.owned, List.takeWhile_cons, if_pos (decide_eq_true hcode.indented),
      List.takeWhile_nil]
  have hafter : Block.after head.indent [call] = [] := by
    rw [Block.after, List.dropWhile_cons, if_pos (decide_eq_true hcode.indented),
      List.dropWhile_nil]
  have hbody : Block.ofLines [call] = [.signal call.number kind label] := by
    rw [Block.ofLines, hcall.notIf, hcall.simple?_eq]
    dsimp only
    rw [Block.ofLines]
    rfl
  rw [parse, hcode.lines, Block.ofLines, hassignment.notIf, hassignment.reads]
  dsimp only
  rw [Block.ofLines, hcondition]
  dsimp only
  rw [howned, hafter, hbody, hclean, Block.chainOfLines, Block.afterChain, Block.ofLines]
  rfl

/-! ## The run -/

variable {α : Type} [Arith α]

/-- Without a parent and earlier branches, a branch is active where its condition holds. -/
theorem active_first {bars : Nat} {flags : Flags} (hflags : flags.length = bars) :
    Run.active none (List.replicate bars false) flags = flags := by
  obtain rfl := hflags
  rw [Run.active]
  induction flags with
  | nil => rfl
  | cons flag rest ih =>
      rw [List.length_cons, List.replicate_succ, List.zipWith_cons_cons, Bool.not_false,
        Bool.and_true]
      exact congrArg _ ih

/-- A signal under an `if` is given exactly where the name that it tests is true. -/
theorem run_guarded {code : String} {assignment head call : Line} {prices : Prices α}
    {params : Params α} {env : Environment α} {value : Value α} {flags : Flags}
    (hcode : IsGuarded code assignment head call)
    (hassignment : Assigns assignment name expression)
    (hhead : head.text = headText name.toList decoration) (hcall : Signals call kind label)
    (hname : isIdentifier name.toList = true)
    (hvalue : name.toList ∉ ["true".toList, "false".toList])
    (hthen : decoration = .bare → ¬ "then".toList <:+ name.toList) (hprices : prices.Aligned)
    (hstart : Environment.start prices params = .ok env)
    (hexpression : evaluate? ⟨env, prices.length⟩ expression = .ok (some value))
    (hflags : value.truth prices.length = some flags) :
    ∃ final, Script.run code prices params = .ok final ∧ final.activations = [(kind, flags)] ∧
      final.unresolved = [] ∧ final.skipped = [] := by
  have hcontext : Context.Covered ⟨env, prices.length⟩ :=
    Environment.start_covers hprices hstart
  have hlength : flags.length = prices.length :=
    Value.Covers.length_truth (evaluate?_covers hcontext _ _ hexpression) hflags
  have htest : evaluate? ⟨env.bind name value, prices.length⟩ name.toList = .ok (some value) := by
    rw [evaluate?_identifier hname hvalue, String.ofList_toList]
    dsimp only
    rw [Environment.bind, Environment.value?_put, if_pos rfl]
  let bound : Run α := ⟨prices.length, env.bind name value, [], [], [], []⟩
  let final : Run α :=
    ⟨prices.length, env.bind name value, [flags], [⟨kind, .branch 0, label⟩], [], []⟩
  have hrun : Run.start prices params = .ok ⟨prices.length, env, [], [], [], []⟩ := by
    rw [Run.start, hstart]
    rfl
  have hassign : Run.assign ⟨prices.length, env, [], [], [], []⟩ assignment.number name
      expression = .ok bound := by
    rw [Run.assign, Run.context, hexpression]
    rfl
  have hcondition : bound.condition head.number name.toList = .ok (bound, flags) := by
    have htruth : (some value).bind (·.truth bound.bars) = some flags := hflags
    rw [Run.condition]
    refine Outcome.bind_eq_ok.2 ⟨_, htest, ?_⟩
    rw [htruth]
    rfl
  have hbody : Run.block (some (.branch 0))
      (bound.register (Run.active none (List.replicate bound.bars false) flags)).1
      [.signal call.number kind label] = .ok final := by
    rw [active_first hlength]
    rfl
  have hchain : Run.chain none bound (List.replicate bound.bars false)
      [.mk head.number name.toList [.signal call.number kind label]] =
        .ok (final, List.zipWith (· || ·) (List.replicate bound.bars false) flags) := by
    rw [Run.chain]
    exact Outcome.bind_eq_ok.2 ⟨_, hcondition, Outcome.bind_eq_ok.2 ⟨_, hbody, rfl⟩⟩
  have hstatement : Run.statement none bound (.chain head.number
      [.mk head.number name.toList [.signal call.number kind label]] []) = .ok final := by
    rw [Run.statement]
    exact Outcome.bind_eq_ok.2 ⟨_, hchain, rfl⟩
  refine ⟨final, ?_, rfl, rfl, rfl⟩
  rw [Script.run, hcode.parse_eq hassignment hhead hname hthen hcall]
  exact Outcome.bind_eq_ok.2 ⟨_, hrun, Outcome.bind_eq_ok.2 ⟨_, hassign,
    Outcome.bind_eq_ok.2 ⟨_, hstatement, rfl⟩⟩⟩

/-- A name with truth values, a condition that is this name, and a signal under it. -/
def testedScript (name : String) : String :=
  name ++ " = close > 0\nif " ++ name ++ "\n    strategy.entry(\"L\", strategy.long)"

/-- The expression of the assignment holds at both bars. -/
theorem closeAboveZero_truth : ∃ value : Value Float,
    evaluate? ⟨Environment.ofPrices flatPrices, 2⟩ "close > 0".toList = .ok (some value) ∧
      value.truth 2 = some [true, true] := by
  have htruth : ((evaluate? ⟨Environment.ofPrices flatPrices, 2⟩ "close > 0".toList).toOption.bind
      id).bind (·.truth 2) = some [true, true] := by
    decide +kernel
  obtain ⟨value, hfound, hvalue⟩ := Option.bind_eq_some_iff.1 htruth
  obtain ⟨found, hok, rfl⟩ := Option.bind_eq_some_iff.1 hfound
  exact ⟨value, Outcome.toOption_eq_some.1 hok, hvalue⟩

theorem run_guarded_rising :
    isIdentifier "rising".toList = true ∧ ¬ "then".toList <:+ "rising".toList ∧
      ∃ final, Script.run (testedScript "rising") flatPrices [] = .ok final ∧
        final.activations = [(.openLong, [true, true])] ∧ final.unresolved = [] ∧
        final.skipped = [] := by
  obtain ⟨value, hexpression, hflags⟩ := closeAboveZero_truth
  have hcode : IsGuarded (testedScript "rising") ⟨1, 0, "rising = close > 0".toList⟩
      ⟨2, 0, headText "rising".toList .bare⟩
      ⟨3, 4, "strategy.entry(\"L\", strategy.long)".toList⟩ :=
    ⟨by decide +kernel, by decide⟩
  have hassignment : Assigns ⟨1, 0, "rising = close > 0".toList⟩ "rising" "close > 0".toList :=
    ⟨by decide +kernel, rfl⟩
  have hcall : Signals ⟨3, 4, "strategy.entry(\"L\", strategy.long)".toList⟩ .openLong (some "L") :=
    ⟨by decide +kernel, by decide +kernel⟩
  have hname : isIdentifier "rising".toList = true := by decide +kernel
  have hends : ¬ "then".toList <:+ "rising".toList := by decide
  exact ⟨hname, hends, run_guarded hcode hassignment rfl hcall hname (by decide) (fun _ => hends)
    ⟨rfl, rfl, rfl, rfl, rfl⟩ rfl hexpression hflags⟩

/-- The last letters of this name are taken for a decoration; what is left of it is not bound, and
the signal is never given. -/
theorem strengthen_stripped :
    isIdentifier "strengthen".toList = true ∧
      contentLines (testedScript "strengthen").toList =
        [⟨1, 0, "strengthen = close > 0".toList⟩, ⟨2, 0, headText "strengthen".toList .bare⟩,
          ⟨3, 4, "strategy.entry(\"L\", strategy.long)".toList⟩] ∧
      (∃ value : Value Float,
        evaluate? ⟨Environment.ofPrices flatPrices, 2⟩ "close > 0".toList = .ok (some value) ∧
          value.truth 2 = some [true, true]) ∧
      ∃ final, Script.run (testedScript "strengthen") flatPrices [] = .ok final ∧
        final.activations = [(.openLong, [false, false])] ∧ final.unresolved = [2] := by
  have hrun : (Script.run (testedScript "strengthen") flatPrices []).toOption.map
      (fun final => (final.activations, final.unresolved)) =
        some ([(.openLong, [false, false])], [2]) := by
    decide +kernel
  obtain ⟨final, hfinal, hboth⟩ := Option.map_eq_some_iff.1 hrun
  obtain ⟨hactivations, hunresolved⟩ := Prod.mk.inj hboth
  exact ⟨by decide +kernel, by decide +kernel, closeAboveZero_truth, final,
    Outcome.toOption_eq_some.1 hfinal, hactivations, hunresolved⟩

end Backtest.Script
