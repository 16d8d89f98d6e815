import Backtest.Proofs.Expr.Binding
import Backtest.Proofs.Search.Repeat
import Backtest.Proofs.Strategy.Fault
import Backtest.Proofs.Strategy.Mask
import Backtest.Proofs.Strategy.Transcript

/-!
# Presets agree with their transcripts

A preset works on whole series and cuts its signals by a mask of the bars at which it is ready.  Its
transcript goes through the reader, the evaluator and the chain of an `if`, and has no such mask.
Both give the same report (`backtestPreset_eq_backtestScript`).

The mask is not needed because nothing acts at the first bar, and from the second one on it is open
wherever a comparison can hold: averages of finite closes are defined from the first bar on, and a
crossing compares the strength of two bars that are both defined.
-/

namespace Backtest

open Arith Backtest.Expr Script Outcome Environment

variable {α : Type} [Arith α]

/-! ## Parameters -/

/-- A finite number stands for the same window whatever the default is. -/
theorem Lawful.windowOr_eq (hlaws : Lawful α) {x : α} (hx : isFinite x = true)
    (default other : Nat) : windowOr default x = windowOr other x := by
  obtain ⟨length, hlength⟩ := hlaws.window x hx
  rw [windowOr, windowOr, hlength]
  rfl

namespace Preset

variable {kind : StrategyKind} {prices : Prices α} {params used : Params α} {name : String} {x : α}

theorem periodOf_eq (hx : (param used name).toReal = .ok x) (default : Nat) :
    periodOf used name default = .ok (windowOr default x) := Scalar.period_eq hx default

theorem closeAverage_eq (haverage : averageKind used = .exponential)
    (hx : (param used name).toReal = .ok x) :
    closeAverage prices used name = .ok (Series.exponential (windowOr 14 x) prices.close) := by
  rw [closeAverage, haverage, periodOf_eq hx]
  rfl

/-- Parameters that a preset and a script read alike: its numeric ones are finite, its averages are
exponential, and those that it does not know are names with a value that leave the close alone. -/
structure Comparable (kind : StrategyKind) (params : Params α) : Prop where
  finite : ∀ entry ∈ params, entry.1 ∈ numericNames kind → entry.2.IsFinite
  exponential : averageNames kind ≠ [] → averageKind (resolve kind params) = .exponential
  named : ∀ entry ∈ params, isIdentifier entry.1.toList = true ∧ entry.1 ≠ closeName.string
  bindable : Environment.Bindable params

/-- The defaults of a preset with a transcript are whole numbers up to a hundred and the kind of its
averages. -/
theorem isFinite_or_text_default (hlaws : Lawful α) {code : String}
    (hcode : Transcript.ofKind? kind = some code) {entry : String × Scalar α}
    (hentry : entry ∈ (defaults kind : Params α)) :
    entry.2.IsFinite ∨ entry = ("maType", .text "EMA") := by
  cases kind
  case bands => exact nomatch hcode
  all_goals
    simp only [defaults, List.mem_cons, List.not_mem_nil, or_false] at hentry
    rcases hentry with rfl | rfl | rfl | rfl
  all_goals first
    | exact .inl (hlaws.small_finite _ (by decide))
    | exact .inr rfl

theorem bindable_defaults (hlaws : Lawful α) {code : String}
    (hcode : Transcript.ofKind? kind = some code) :
    Environment.Bindable (defaults kind : Params α) := by
  intro entry hentry
  rcases isFinite_or_text_default hlaws hcode hentry with hfinite | rfl
  · obtain ⟨x, _, _, hvalue⟩ := hfinite.exists_number
    exact ⟨_, hvalue⟩
  · exact ⟨_, rfl⟩

theorem named_defaults (kind : StrategyKind) :
    ∀ entry ∈ (defaults kind : Params α),
      isIdentifier entry.1.toList = true ∧ entry.1 ≠ closeName.string := by
  have hnames : ∀ name ∈ ["fastLength", "midLength", "slowLength", "maType", "rsiPeriod",
      "oversold", "overbought", "signalLength", "bbLength", "bbMult"],
      isIdentifier name.toList = true ∧ name ≠ closeName.string := by
    decide +kernel
  intro entry hentry
  apply hnames
  cases kind
  all_goals
    simp only [defaults, List.mem_cons, List.not_mem_nil, or_false] at hentry
    rcases hentry with rfl | rfl | rfl | rfl
  all_goals simp

theorem isFinite_param (hlaws : Lawful α) {code : String}
    (hcode : Transcript.ofKind? kind = some code) (hparams : Comparable kind params)
    (hname : name ∈ numericNames kind) : (param (resolve kind params) name).IsFinite := by
  rcases Record.mem_of_mem_overlay (param_mem_resolve params hname) with hmem | hmem
  · exact hparams.finite _ hmem hname
  · rcases isFinite_or_text_default hlaws hcode hmem with hfinite | hkind
    · exact hfinite
    · obtain ⟨rfl, _⟩ := Prod.mk.inj hkind
      cases kind <;> exact absurd hname (by simp [numericNames])

end Preset

/-! ## The environment of a transcript -/

/-- An environment with the close and the numbers of the parameters that a preset reads. -/
structure Environment.Serves (env : Environment α) (kind : StrategyKind) (prices : Prices α)
    (used : Params α) : Prop where
  named : Named env
  close : env.value? closeName.string = some (.series prices.close)
  number : ∀ name ∈ Preset.numericNames kind, ∃ x, isFinite x = true ∧
    (Preset.param used name).toReal = .ok x ∧ env.value? name = some (.number x)

namespace Environment

variable {env : Environment α} {kind : StrategyKind} {prices : Prices α} {params used : Params α}

theorem Serves.bind (hserves : env.Serves kind prices used) (token : NameToken)
    (hfresh : token.string ≠ closeName.string ∧ token.string ∉ Preset.numericNames kind)
    (value : Value α) : (env.bind token.string value).Serves kind prices used := by
  refine ⟨named_put hserves.named ?_ _, ?_, ?_⟩
  · rw [NameToken.string, String.toList_ofList]
    exact token.identifier
  · rw [Environment.bind, value?_put, if_neg hfresh.1]
    exact hserves.close
  · intro name hname
    have hne : token.string ≠ name := fun heq => hfresh.2 (heq ▸ hname)
    obtain ⟨x, hfinite, hx, hvalue⟩ := hserves.number name hname
    refine ⟨x, hfinite, hx, ?_⟩
    rw [Environment.bind, value?_put, if_neg hne]
    exact hvalue

/-- A script starts in an environment that serves the preset whose parameters it is given. -/
theorem exists_start (hlaws : Lawful α) {code : String}
    (hcode : Transcript.ofKind? kind = some code) (hparams : Preset.Comparable kind params)
    (prices : Prices α) :
    ∃ env, start prices (Preset.resolve kind params) = .ok env ∧
      env.Serves kind prices (Preset.resolve kind params) := by
  have hentries : ∀ entry ∈ Preset.resolve kind params,
      (isIdentifier entry.1.toList = true ∧ entry.1 ≠ closeName.string) ∧
        ∃ value, Value.ofScalar entry.2 = .ok value := by
    intro entry hentry
    rcases Record.mem_of_mem_overlay hentry with hmem | hmem
    · exact ⟨hparams.named entry hmem, hparams.bindable entry hmem⟩
    · exact ⟨Preset.named_defaults kind entry hmem,
        Preset.bindable_defaults hlaws hcode entry hmem⟩
  obtain ⟨env, henv⟩ := exists_withParams (ofPrices prices) fun entry hentry =>
    (hentries entry hentry).2
  have hdistinct : (Preset.resolve kind params).Distinct :=
    (Search.distinct_presetDefaults kind).overlay params
  refine ⟨env, henv, named_withParams (named_ofPrices prices) (fun entry hentry =>
    (hentries entry hentry).1.1) henv, ?_, fun name hname => ?_⟩
  · have hclose : closeName.string ∉ Record.names (Preset.resolve kind params) := by
      intro hmem
      obtain ⟨entry, hentry, hname⟩ := List.mem_map.1 hmem
      exact (hentries entry hentry).1.2 hname
    rw [value?_withParams_of_not_mem henv hclose]
    rfl
  · obtain ⟨x, hfinite, hx, hvalue⟩ :=
      (Preset.isFinite_param hlaws hcode hparams hname).exists_number
    have hmem := Preset.param_mem_resolve params hname
    exact ⟨x, hfinite, hx, value?_withParams_of_mem hdistinct henv hmem hvalue⟩

end Environment

/-! ## Presets and their transcripts -/

namespace Preset

/-- No series that the rules of a preset compare with another is undefined after it was defined. -/
def StaysDefined (kind : StrategyKind) (prices : Prices α) (used : Params α) : Prop :=
  match kind with
  | .dualAverage | .tripleAverage =>
      ∀ name ∈ averageNames kind, ∀ xs, closeAverage prices used name = .ok xs → xs.StaysDefined
  | .convergence =>
      ∀ fast slow signal, periodOf used "fastLength" 14 = .ok fast →
        periodOf used "slowLength" 14 = .ok slow → periodOf used "signalLength" 14 = .ok signal →
          (Series.convergence fast slow signal prices.close).line.StaysDefined ∧
            (Series.convergence fast slow signal prices.close).signal.StaysDefined
  | .strength | .bands => True

/-- A block gives the signals of a preset, as far as a simulation sees them. -/
def Renders (kind : StrategyKind) (prices : Prices α) (used : Params α) (env : Environment α)
    (statements : List Statement) : Prop :=
  ∃ rules run, build kind prices used = .ok rules ∧ rules.fromFlat = false ∧
    Run.block none (Run.fresh prices.length env) statements = .ok run ∧
    List.Forall₂ (SameFromSecond prices.length) run.activations rules.signals

end Preset

section Renders

variable {prices : Prices α} {used : Params α} {env : Environment α} {kind : StrategyKind}

theorem Prices.Accepted.definedAt_zero (hlaws : Lawful α) (haccepted : prices.Accepted) :
    prices.close.definedAt 0 = true := by
  have hfirst : 0 < prices.close.length := haccepted.nonempty
  have hfinite := haccepted.finite _ (List.getElem_mem hfirst)
  rw [Series.definedAt, List.getElem?_eq_getElem hfirst, Option.any_some,
    hlaws.finite_defined _ hfinite]
  rfl

/-- An exponential average of the close that stays defined is defined everywhere. -/
theorem Prices.Accepted.exponential_defined (hlaws : Lawful α) (haccepted : prices.Accepted)
    {period : Nat} (hstays : (Series.exponential period prices.close).StaysDefined) :
    (Series.exponential period prices.close).Defined :=
  hstays.defined fun _ => Series.definedAt_zero_smooth _ (haccepted.definedAt_zero hlaws)

theorem Run.activations_sides {bars : Nat} {first second : Term} {xs ys : Series α}
    (hnamed : Named env) (hfirst : meaning ⟨env, bars⟩ first = some (.series xs))
    (hsecond : meaning ⟨env, bars⟩ second = some (.series ys)) (line : Nat) :
    ∃ run, Run.block none (Run.fresh bars env) (Transcript.sides line first second) = .ok run ∧
      run.activations =
        [(.openLong, Run.active none (List.replicate bars false)
            (List.zipWith Comparison.above.test xs ys)),
          (.openShort, Run.active none (List.replicate bars false)
            (List.zipWith Comparison.below.test xs ys))] :=
  Run.activations_two_rules hnamed (Transcript.meaning_comparison .above hfirst hsecond)
    (Transcript.meaning_comparison .below hfirst hsecond) _ _ _ _ _ _

/-- The meaning of an average of the close and its preset counterpart. -/
theorem Environment.Serves.average (hserves : env.Serves kind prices used)
    (haverage : Preset.averageKind used = .exponential) (length : NameToken)
    (hlength : length.string ∈ Preset.numericNames kind) (bars : Nat) :
    ∃ period, Preset.closeAverage prices used length.string =
        .ok (Series.exponential period prices.close) ∧
      meaning ⟨env, bars⟩ (Transcript.average length) =
        some (.series (Series.exponential period prices.close)) := by
  obtain ⟨x, _, hx, hvalue⟩ := hserves.number _ hlength
  exact ⟨_, Preset.closeAverage_eq haverage hx,
    Transcript.meaning_average hserves.close hvalue⟩

theorem renders_dualAverage (hlaws : Lawful α) (haccepted : prices.Accepted)
    (haverage : Preset.averageKind used = .exponential)
    (hserves : env.Serves .dualAverage prices used)
    (hstays : Preset.StaysDefined .dualAverage prices used) :
    Preset.Renders .dualAverage prices used env
      (Transcript.sides 1 (Transcript.average Transcript.fastLength)
        (Transcript.average Transcript.slowLength)) := by
  obtain ⟨fast, hfast, hfastMeaning⟩ := hserves.average haverage
    Transcript.fastLength (by decide) prices.length
  obtain ⟨slow, hslow, hslowMeaning⟩ := hserves.average haverage
    Transcript.slowLength (by decide) prices.length
  have hdefined : ∀ xs ∈ [Series.exponential fast prices.close,
      Series.exponential slow prices.close], xs.Defined := by
    refine List.forall_mem_cons.2 ⟨?_, List.forall_mem_singleton.2 ?_⟩
    · exact haccepted.exponential_defined hlaws (hstays _ (by decide) _ hfast)
    · exact haccepted.exponential_defined hlaws (hstays _ (by decide) _ hslow)
  obtain ⟨run, hrun, hactivations⟩ :=
    Run.activations_sides hserves.named hfastMeaning hslowMeaning 1
  refine ⟨Preset.sides (Series.exponential fast prices.close) (Series.exponential slow prices.close),
    run, ?_, rfl, hrun, ?_⟩
  · exact bind_eq_ok.2 ⟨_, hfast, bind_eq_ok.2 ⟨_, hslow, rfl⟩⟩
  · rw [hactivations]
    exact sides_sameFromSecond (Series.length_exponential _ _) (Series.length_exponential _ _)
      hdefined

theorem Run.activations_order {bars : Nat} {xs ys zs : Series α} (hnamed : Named env)
    (hfast : env.value? Transcript.fast.string = some (.series xs))
    (hmid : env.value? Transcript.mid.string = some (.series ys))
    (hslow : env.value? Transcript.slow.string = some (.series zs)) (line : Nat) :
    let first := List.replicate bars false
    let falls := bothWhere Comparison.above.test xs ys zs
    let rises := bothWhere Comparison.below.test xs ys zs
    let second := List.zipWith (· || ·) first falls
    ∃ run, Run.block none (Run.fresh bars env) [Transcript.order line] = .ok run ∧
      run.activations =
        [(.openLong, Run.active none first falls), (.openShort, Run.active none second rises),
          (.closeAny, Run.active none (List.zipWith (· || ·) second rises)
            (List.replicate bars true))] := by
  intro first falls rises second
  have hfalls : meaning ⟨env, bars⟩ (Transcript.ordered .above (.name Transcript.fast)
      (.name Transcript.mid) (.name Transcript.slow)) = some (.flags falls) :=
    Transcript.meaning_ordered .above hfast hmid hslow
  have hrises : meaning ⟨env, bars⟩ (Transcript.ordered .below (.name Transcript.fast)
      (.name Transcript.mid) (.name Transcript.slow)) = some (.flags rises) :=
    Transcript.meaning_ordered .below hfast hmid hslow
  refine ⟨(((Run.fresh bars env).give first falls .openLong (some "Long")).give second rises
    .openShort (some "Short")).give _ (List.replicate bars true) .closeAny none, ?_, rfl⟩
  rw [Run.block, Transcript.order, Run.statement, Option.map_none, Run.chain_give hnamed hfalls]
  change (Run.chain none ((Run.fresh bars env).give first falls _ _) second [_] >>= _) >>= _ = _
  rw [Run.chain_give hnamed hrises]
  rfl

theorem renders_tripleAverage (hlaws : Lawful α) (haccepted : prices.Accepted)
    (haverage : Preset.averageKind used = .exponential)
    (hserves : env.Serves .tripleAverage prices used)
    (hstays : Preset.StaysDefined .tripleAverage prices used) :
    Preset.Renders .tripleAverage prices used env
      [.assign 1 Transcript.fast.string (Transcript.average Transcript.fastLength).print,
        .assign 2 Transcript.mid.string (Transcript.average Transcript.midLength).print,
        .assign 3 Transcript.slow.string (Transcript.average Transcript.slowLength).print,
        Transcript.order 4] := by
  obtain ⟨fast, hfast, hfastMeaning⟩ := hserves.average haverage Transcript.fastLength
    (by decide) prices.length
  have hserves₁ := hserves.bind Transcript.fast (by decide)
    (.series (Series.exponential fast prices.close))
  obtain ⟨mid, hmid, hmidMeaning⟩ := hserves₁.average haverage Transcript.midLength
    (by decide) prices.length
  have hserves₂ := hserves₁.bind Transcript.mid (by decide)
    (.series (Series.exponential mid prices.close))
  obtain ⟨slow, hslow, hslowMeaning⟩ := hserves₂.average haverage Transcript.slowLength
    (by decide) prices.length
  have hserves₃ := hserves₂.bind Transcript.slow (by decide)
    (.series (Series.exponential slow prices.close))
  have hdefined : ∀ xs ∈ [Series.exponential fast prices.close,
      Series.exponential mid prices.close, Series.exponential slow prices.close], xs.Defined := by
    refine List.forall_mem_cons.2 ⟨?_, List.forall_mem_cons.2 ⟨?_, List.forall_mem_singleton.2 ?_⟩⟩
    · exact haccepted.exponential_defined hlaws (hstays _ (by decide) _ hfast)
    · exact haccepted.exponential_defined hlaws (hstays _ (by decide) _ hmid)
    · exact haccepted.exponential_defined hlaws (hstays _ (by decide) _ hslow)
  -- The three names are different, so each is found behind those that are bound after it.
  obtain ⟨run, hrun, hactivations⟩ := Run.activations_order hserves₃.named
    (((value?_bind_of_ne _ (by decide) _).trans (value?_bind_of_ne _ (by decide) _)).trans
      (value?_bind_self _ _ _))
    ((value?_bind_of_ne _ (by decide) _).trans (value?_bind_self _ _ _))
    (value?_bind_self _ _ _) 4
  refine ⟨Preset.order (Series.exponential fast prices.close) (Series.exponential mid prices.close)
    (Series.exponential slow prices.close), run, ?_, rfl, ?_, ?_⟩
  · exact bind_eq_ok.2 ⟨_, hfast, bind_eq_ok.2 ⟨_, hmid, bind_eq_ok.2 ⟨_, hslow, rfl⟩⟩⟩
  · rw [Run.block_fresh_assign hserves.named hfastMeaning,
      Run.block_fresh_assign hserves₁.named hmidMeaning,
      Run.block_fresh_assign hserves₂.named hslowMeaning]
    exact hrun
  · rw [hactivations]
    exact order_sameFromSecond hlaws (Series.length_exponential _ _)
      (Series.length_exponential _ _) (Series.length_exponential _ _) hdefined

theorem renders_strength (hlaws : Lawful α) (hserves : env.Serves .strength prices used) :
    Preset.Renders .strength prices used env
      [rule 1 (.call .crossover [Transcript.strength, .name Transcript.oversold]) .openLong
          (some "Long"),
        rule 3 (.call .crossunder [Transcript.strength, .name Transcript.overbought]) .openShort
          (some "Short")] := by
  obtain ⟨x, _, hx, hperiod⟩ := hserves.number Transcript.rsiPeriod.string (by decide)
  obtain ⟨low, _, hlow, hoversold⟩ := hserves.number Transcript.oversold.string (by decide)
  obtain ⟨high, _, hhigh, hoverbought⟩ := hserves.number Transcript.overbought.string (by decide)
  have hstrength : meaning ⟨env, prices.length⟩ Transcript.strength =
      some (.series (Series.relativeStrength (windowOr 14 x) prices.close)) :=
    Transcript.meaning_strength hserves.close hperiod
  have hline : (Series.relativeStrength (windowOr 14 x) prices.close).length = prices.length :=
    Series.length_relativeStrength _ _
  obtain ⟨run, hrun, hactivations⟩ := Run.activations_two_rules hserves.named
    (Transcript.meaning_crossover hstrength hoversold)
    (Transcript.meaning_crossunder hstrength hoverbought) 1 3 .openLong .openShort
    (some "Long") (some "Short")
  refine ⟨_, run, bind_eq_ok.2 ⟨_, Preset.periodOf_eq hx 14,
    bind_eq_ok.2 ⟨_, hlow, bind_eq_ok.2 ⟨_, hhigh, rfl⟩⟩⟩, rfl, hrun, ?_⟩
  rw [hactivations, hline]
  refine .cons ⟨rfl, fun bar hbar => ?_⟩ (.cons ⟨rfl, fun bar hbar => ?_⟩ .nil)
  · rw [truthAt_active_first ((Series.length_crossover _ _).trans
        (by rw [hline, List.length_replicate, Nat.min_self])) hbar,
      hlaws.truthAt_ready_crossover hline List.length_replicate hbar]
  · rw [truthAt_active_first ((Series.length_crossunder _ _).trans
        (by rw [hline, List.length_replicate, Nat.min_self])) hbar,
      hlaws.truthAt_ready_crossunder hline List.length_replicate hbar]

/-- The lines of a convergence are bound to the names on the left. -/
theorem Run.destructure_convergence (hlaws : Lawful α)
    (hserves : env.Serves .convergence prices used) (line bars : Nat) (names : List String) :
    ∃ fast slow signal, Preset.periodOf used "fastLength" 14 = .ok fast ∧
      Preset.periodOf used "slowLength" 14 = .ok slow ∧
      Preset.periodOf used "signalLength" 14 = .ok signal ∧
      let lines := Series.convergence fast slow signal prices.close
      (Run.fresh bars env).destructure line names .convergence
          (Term.texts Transcript.lineArguments) =
        .ok (Run.fresh bars ((names.zip [lines.line, lines.signal, lines.histogram]).foldl
          (fun env entry => env.bind entry.1 (.series entry.2)) env)) := by
  obtain ⟨x, hfiniteX, hx, hfast⟩ := hserves.number Transcript.fastLength.string (by decide)
  obtain ⟨y, hfiniteY, hy, hslow⟩ := hserves.number Transcript.slowLength.string (by decide)
  obtain ⟨z, hfiniteZ, hz, hsignal⟩ := hserves.number Transcript.signalLength.string (by decide)
  refine ⟨_, _, _, Preset.periodOf_eq hx 14, Preset.periodOf_eq hy 14, Preset.periodOf_eq hz 14, ?_⟩
  intro lines
  have hsource : numericOf ⟨env, bars⟩ (argumentEvaluator ⟨env, bars⟩
      (Term.texts Transcript.lineArguments))
        ((Term.texts Transcript.lineArguments)[0]?.getD "close".toList) = .ok (some prices.close) :=
    numericOf_eq ((finds_evaluateWithin hserves.named _).name closeName _ (Nat.succ_pos _)
      hserves.close) rfl
  -- The defaults of the function differ from that of the preset, but none of them is needed.
  have hwindow {place : Nat} {token : NameToken} {length : α} (default : Nat)
      (hplace : Transcript.lineArguments[place]? = some (.name token))
      (hvalue : env.value? token.string = some (.number length))
      (hfinite : isFinite length = true) :
      windowOf ⟨env, bars⟩ (Term.texts Transcript.lineArguments)[place]? default =
        .ok (windowOr 14 length) := by
    apply windowOf_periodAt hserves.named
    rw [periodAt, hplace]
    dsimp only
    rw [hvalue, hlaws.windowOr_eq hfinite 14 default]
  have hlines : convergenceOf ⟨env, bars⟩ (argumentEvaluator ⟨env, bars⟩
      (Term.texts Transcript.lineArguments)) (Term.texts Transcript.lineArguments) =
        .ok (some lines) :=
    bind_eq_ok.2 ⟨_, hsource, bind_eq_ok.2 ⟨_, hwindow 12 rfl hfast hfiniteX,
      bind_eq_ok.2 ⟨_, hwindow 26 rfl hslow hfiniteY,
        bind_eq_ok.2 ⟨_, hwindow 9 rfl hsignal hfiniteZ, rfl⟩⟩⟩⟩
  exact bind_eq_ok.2 ⟨_, bind_eq_ok.2 ⟨_, hlines, rfl⟩, rfl⟩

/-- The lines of a convergence of finite closes are defined at the first bar. -/
theorem Prices.Accepted.convergence_defined (hlaws : Lawful α) (haccepted : prices.Accepted)
    {fast slow signal : Nat}
    (hline : (Series.convergence fast slow signal prices.close).line.StaysDefined)
    (hsignal : (Series.convergence fast slow signal prices.close).signal.StaysDefined) :
    ∀ xs ∈ [(Series.convergence fast slow signal prices.close).line,
      (Series.convergence fast slow signal prices.close).signal], xs.Defined := by
  have hclose := haccepted.definedAt_zero hlaws
  have hfirst : 0 < prices.close.length := haccepted.nonempty
  have hzero : (Series.convergence fast slow signal prices.close).line.definedAt 0 = true := by
    have hsame (period : Nat) : (Series.exponential period prices.close)[0]? =
        some prices.close[0] :=
      (Series.getElem?_zero_smooth _ hclose).trans (List.getElem?_eq_getElem hfirst)
    rw [Series.definedAt, Series.convergence, List.getElem?_zipWith, hsame, hsame]
    have hdifference := hlaws.self_sub_defined _ (haccepted.finite _ (List.getElem_mem hfirst))
    simp [hdifference]
  refine List.forall_mem_cons.2 ⟨hline.defined fun _ => hzero, List.forall_mem_singleton.2 ?_⟩
  exact hsignal.defined fun _ => Series.definedAt_zero_smooth _ hzero

theorem renders_convergence (hlaws : Lawful α) (haccepted : prices.Accepted)
    (hserves : env.Serves .convergence prices used)
    (hstays : Preset.StaysDefined .convergence prices used) :
    Preset.Renders .convergence prices used env
      (.destructure 1 [Transcript.m.string, Transcript.s.string, Transcript.h.string] .convergence
          (Term.texts Transcript.lineArguments) ::
        Transcript.sides 2 (.name Transcript.m) (.name Transcript.s)) := by
  obtain ⟨fast, slow, signal, hfast, hslow, hsignal, hlines⟩ :=
    Run.destructure_convergence hlaws hserves 1 prices.length
      [Transcript.m.string, Transcript.s.string, Transcript.h.string]
  let lines := Series.convergence fast slow signal prices.close
  have hcovers := Series.convergence_covers fast slow signal prices.close
  obtain ⟨hline, hsignalLine⟩ := hstays fast slow signal hfast hslow hsignal
  let env₁ := env.bind Transcript.m.string (.series lines.line)
  let env₂ := env₁.bind Transcript.s.string (.series lines.signal)
  let env₃ := env₂.bind Transcript.h.string (.series lines.histogram)
  have hserves₃ : env₃.Serves .convergence prices used :=
    ((hserves.bind Transcript.m (by decide) _).bind Transcript.s (by decide) _).bind Transcript.h
      (by decide) _
  have hfirst : meaning ⟨env₃, prices.length⟩ (.name Transcript.m) = some (.series lines.line) :=
    (value?_bind_of_ne env₂ (by decide) _).trans ((value?_bind_of_ne env₁ (by decide) _).trans
      (value?_bind_self env _ _))
  have hsecond : meaning ⟨env₃, prices.length⟩ (.name Transcript.s) =
      some (.series lines.signal) :=
    (value?_bind_of_ne env₂ (by decide) _).trans (value?_bind_self env₁ _ _)
  obtain ⟨run, hrun, hactivations⟩ := Run.activations_sides hserves₃.named hfirst hsecond 2
  refine ⟨Preset.sides lines.line lines.signal, run, ?_, rfl, ?_, ?_⟩
  · exact bind_eq_ok.2 ⟨_, hfast, bind_eq_ok.2 ⟨_, hslow, bind_eq_ok.2 ⟨_, hsignal, rfl⟩⟩⟩
  · exact bind_eq_ok.2 ⟨_, hlines, hrun⟩
  · rw [hactivations]
    exact sides_sameFromSecond hcovers.line hcovers.signal
      (haccepted.convergence_defined hlaws hline hsignalLine)

/-- A transcript gives the signals of its preset. -/
theorem renders_transcript (hlaws : Lawful α) (haccepted : prices.Accepted) {code : String}
    (hcode : Transcript.ofKind? kind = some code)
    (haverage : Preset.averageNames kind ≠ [] → Preset.averageKind used = .exponential)
    (hserves : env.Serves kind prices used) (hstays : Preset.StaysDefined kind prices used) :
    Preset.Renders kind prices used env (parse code.toList) := by
  rw [Transcript.parse_ofKind hcode]
  cases kind with
  | dualAverage =>
      exact renders_dualAverage hlaws haccepted (haverage (by decide)) hserves hstays
  | tripleAverage =>
      exact renders_tripleAverage hlaws haccepted (haverage (by decide)) hserves hstays
  | strength => exact renders_strength hlaws hserves
  | convergence => exact renders_convergence hlaws haccepted hserves hstays
  | bands => exact nomatch hcode

end Renders

/-! ## Whole backtests -/

/-- A script that declares nothing runs with exactly the parameters that it is given. -/
theorem overlay_scriptDefaults {kind : StrategyKind} {code : String}
    (hcode : Transcript.ofKind? kind = some code) {used : Params α} (hused : used.Distinct) :
    Record.overlay (Input.scriptDefaults code.toList) used = used := by
  rw [Transcript.scriptDefaults_eq_nil hcode]
  have hdistinct : Record.Distinct ([] ++ used) := hused
  exact Record.overlay_append_of_prefix hdistinct List.nil_prefix

theorem Report.ofStatements_transcript (hlaws : Lawful α) {kind : StrategyKind} {code : String}
    (hcode : Transcript.ofKind? kind = some code) {params : Params α}
    (hparams : Preset.Comparable kind params) (asset : Option (Asset α)) {prices : Prices α}
    (haccepted : prices.Accepted)
    (hstays : Preset.StaysDefined kind prices (Preset.resolve kind params)) :
    ofStatements prices (parse code.toList) (Preset.resolve kind params) asset =
      ofPreset prices kind params asset := by
  obtain ⟨env, henv, hserves⟩ := exists_start hlaws hcode hparams prices
  obtain ⟨rules, run, hrules, hfromFlat, hrun, hsame⟩ :=
    renders_transcript hlaws haccepted hcode hparams.exponential hserves hstays
  have hexecute : execute (parse code.toList) prices (Preset.resolve kind params) = .ok run :=
    bind_eq_ok.2 ⟨_, bind_eq_ok.2 ⟨_, henv, rfl⟩, hrun⟩
  calc ofStatements prices (parse code.toList) (Preset.resolve kind params) asset
      = ofSignals prices run.activations false (Preset.resolve kind params) asset := by
        rw [ofStatements, hexecute]
        rfl
    _ = ofSignals prices rules.signals rules.fromFlat (Preset.resolve kind params) asset := by
        rw [hfromFlat]
        exact ofSignals_congr hsame false _ asset
    _ = ofPreset prices kind params asset := by
        change _ = Preset.build kind prices (Preset.resolve kind params) >>= _
        rw [hrules]
        rfl

/-- A preset and its transcript, given the parameters of the preset, have the same report, trades,
equity and all.  There is one as soon as no close is zero and the bars are in the calendar. -/
theorem backtestScript_transcript {kind : StrategyKind} {code : String}
    (hcode : Transcript.ofKind? kind = some code) {params : Params Float}
    (hparams : Preset.Comparable kind params) (asset : Option (Asset Float))
    {bars : List (Bar Float)} {prices : Prices Float}
    (hprices : Prices.ofValidBars bars = .ok prices)
    (hstays : Preset.StaysDefined kind prices (Preset.resolve kind params)) :
    backtestScript bars code (Preset.resolve kind params) asset =
        backtestPreset bars kind.name params asset ∧
      (¬ Simulation.HasZeroClose prices →
        (∀ timestamp ∈ prices.timestamp, Summary.Dated timestamp) →
          ∃ report, backtestPreset bars kind.name params asset = .ok report) := by
  have haccepted := Prices.ofValidBars_accepted hprices
  have hpreset : backtestPreset bars kind.name params asset =
      Report.ofPreset prices kind params asset := by
    rw [backtestPreset, StrategyKind.ofName_name, hprices]
    rfl
  have hscript : backtestScript bars code (Preset.resolve kind params) asset =
      Report.ofStatements prices (parse code.toList) (Preset.resolve kind params) asset := by
    have hused : Record.overlay (Input.scriptDefaults code.toList) (Preset.resolve kind params) =
        Preset.resolve kind params :=
      overlay_scriptDefaults hcode ((Search.distinct_presetDefaults kind).overlay params)
    rw [backtestScript, hprices, hused]
    rfl
  rw [hpreset, hscript]
  refine ⟨Report.ofStatements_transcript Double.lawful hcode hparams asset haccepted hstays, ?_⟩
  intro hnonzero hdated
  have hnumeric : Preset.Numeric kind (Preset.resolve kind params) := by
    intro name hname
    obtain ⟨x, _, hx, _⟩ :=
      (Preset.isFinite_param Double.lawful hcode hparams hname).exists_number
    exact ⟨x, hx⟩
  rcases (Report.ofPreset_failsBy Summary.dividesSpans_float haccepted hnumeric
    asset).ok_or_error with hreport | ⟨fault, hfault, _⟩
  · exact hreport
  · rcases hfault with ⟨_, hweighted, name, hname, _⟩ | ⟨_, hzero⟩ |
      ⟨_, timestamp, hmem, hundated⟩
    · have haverage := hparams.exponential (List.ne_nil_of_mem hname)
      rw [haverage] at hweighted
      cases hweighted
    · exact absurd hzero hnonzero
    · exact absurd (hdated timestamp hmem) hundated

/-- Averages of these closes with these lengths are defined everywhere. -/
theorem staysDefined_threeCloses {prices : Prices Float}
    (hclose : prices.close = (barsOf [1, 2, 3]).map (·.close)) :
    Preset.StaysDefined .dualAverage prices
      (Preset.resolve .dualAverage [("fastLength", .int 2)]) := by
  let table : Prices Float := ⟨[], [], [], [], (barsOf [1, 2, 3]).map (·.close), []⟩
  let used : Params Float := Preset.resolve .dualAverage [("fastLength", .int 2)]
  have hall : ∀ name ∈ Preset.averageNames .dualAverage,
      (Preset.closeAverage table used name).toOption.all
        (fun xs => xs.all fun x => !isNaN x) = true := by
    decide +kernel
  intro name hname xs hxs first later _ hlater _
  have hsame : Preset.closeAverage prices used name = Preset.closeAverage table used name := by
    rw [Preset.closeAverage, hclose]
    rfl
  have hdefined := hall name hname
  rw [← hsame, hxs] at hdefined
  rw [Series.definedAt, List.getElem?_eq_getElem hlater]
  exact List.all_eq_true.1 hdefined _ (List.getElem_mem hlater)

theorem backtestScript_transcript_threeCloses :
    backtestScript (barsOf [1, 2, 3]) Transcript.dualAverage
        (Preset.resolve .dualAverage [("fastLength", .int 2)]) none =
      backtestPreset (barsOf [1, 2, 3]) StrategyKind.dualAverage.name
        [("fastLength", .int 2)] none ∧
    ∃ report, backtestPreset (barsOf [1, 2, 3]) StrategyKind.dualAverage.name
      [("fastLength", .int 2)] none = .ok report := by
  have hfinite : (.int 2 : Scalar Float).IsFinite := Double.lawful.small_finite 2 (by decide)
  obtain ⟨x, _, _, hvalue⟩ := hfinite.exists_number
  have hparams : Preset.Comparable .dualAverage [("fastLength", (.int 2 : Scalar Float))] :=
    { finite := List.forall_mem_singleton.2 fun _ => hfinite
      exponential := fun _ => by decide +kernel
      named := List.forall_mem_singleton.2 (by decide)
      bindable := List.forall_mem_singleton.2 ⟨_, hvalue⟩ }
  have haccepted : fault? (Prices.ofValidBars (barsOf [1, 2, 3])) = none := by
    decide +kernel
  obtain ⟨prices, hprices⟩ := fault?_eq_none.1 haccepted
  obtain ⟨hnonzero, hdated⟩ := plain_threeCloses hprices
  obtain ⟨hequal, hexists⟩ := backtestScript_transcript rfl hparams none hprices
    (staysDefined_threeCloses (Prices.columns_of_ofValidBars hprices).1)
  exact ⟨hequal, hexists hnonzero hdated⟩

end Backtest
