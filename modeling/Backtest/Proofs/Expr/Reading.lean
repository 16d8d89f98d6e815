import Backtest.Expr.Evaluate
import Backtest.Proofs.Expr.Sentence

/-!
# Which construct reads a sentence

The constructs of an expression are tried from the loosest binding to the tightest.  `Tight level`
says that the operators of a sentence bind at least as tightly as a level.  On such a sentence every
construct of a looser operator gives nothing, so the first one that can give a value is that of the
loosest operator of the sentence.  The lemmas `firstOf_*` say, operator by operator, that it does
give the value that the operator makes of its operands.
-/

namespace Backtest.Expr

open Text

/-- A sentence whose operators bind at least as tightly as a level. -/
structure Tight (level : Nat) (words : List Word) : Prop where
  proper : ∀ word ∈ words, word.Proper
  nonempty : words ≠ []
  binds : ∀ sign : Mark, .mark sign ∈ words → level ≤ sign.level
  begins : ∀ sign : Mark, words.head? = some (.mark sign) → sign = .negation

namespace Tight

variable {level bound : Nat} {words left right : List Word} {sign : Mark}

theorem mono (hwords : Tight level words) (hle : bound ≤ level) : Tight bound words :=
  { hwords with binds := fun sign hmem => Nat.le_trans hle (hwords.binds sign hmem) }

theorem not_mem (hwords : Tight level words) (hsign : sign.level < level) :
    Word.mark sign ∉ words := by
  intro hmem
  have := hwords.binds sign hmem
  omega

/-- One atom alone has no operator at all. -/
theorem atom {shown : Chars} (hshown : (Word.atom shown).Proper) (level : Nat) :
    Tight level [.atom shown] where
  proper word hword := by
    rw [List.mem_singleton.1 hword]
    exact hshown
  nonempty := nofun
  binds sign hmem := nomatch List.mem_singleton.1 hmem
  begins sign hhead := by
    injection hhead with hhead
    exact nomatch hhead

/-- An operator between two sentences. -/
theorem join (hleft : Tight level left) (hright : ∀ word ∈ right, word.Proper)
    (hbinds : ∀ sign : Mark, .mark sign ∈ right → level ≤ sign.level) (hsign : level ≤ sign.level) :
    Tight level (left ++ .mark sign :: right) where
  proper word hword := by
    rcases List.mem_append.1 hword with hword | hword
    · exact hleft.proper word hword
    · rcases List.mem_cons.1 hword with rfl | hword
      · trivial
      · exact hright word hword
  nonempty := by
    intro hnil
    exact hleft.nonempty (List.append_eq_nil_iff.1 hnil).1
  binds other hmem := by
    rcases List.mem_append.1 hmem with hmem | hmem
    · exact hleft.binds other hmem
    · rcases List.mem_cons.1 hmem with heq | hmem
      · injection heq with heq
        rw [heq]
        exact hsign
      · exact hbinds other hmem
  begins other hhead := by
    cases left with
    | nil => exact absurd rfl hleft.nonempty
    | cons word rest => exact hleft.begins other hhead

theorem negate (hwords : Tight level words) (hlevel : level ≤ Mark.negation.level) :
    Tight level (.mark .negation :: words) where
  proper word hword := by
    rcases List.mem_cons.1 hword with rfl | hword
    · trivial
    · exact hwords.proper word hword
  nonempty := nofun
  binds sign hmem := by
    rcases List.mem_cons.1 hmem with heq | hmem
    · injection heq with heq
      rw [heq]
      exact hlevel
    · exact hwords.binds sign hmem
  begins sign hhead := by
    injection hhead with hhead
    injection hhead with hhead
    exact hhead.symm

/-! ## Splits -/

theorem firstSplit_eq_none (hwords : Tight level words) (hsplits : sign ≠ .negation)
    (hsign : sign.level < level) : firstSplit sign.symbol (spell words) = none := by
  rw [firstSplit, splits_spell_eq_nil hsplits hwords.proper (hwords.not_mem hsign)]
  rfl

/-- A sentence is split at the leftmost of its loosest operators. -/
theorem firstSplit_eq_some (hleft : Tight level left) (hright : Tight bound right)
    (hsplits : sign ≠ .negation) (hsign : sign.level < level) :
    firstSplit sign.symbol (spell (left ++ .mark sign :: right)) =
      some (spell left, spell right) := by
  obtain ⟨later, hlater⟩ := splits_eq_cons hsplits hleft.proper hleft.nonempty hright.proper
    hright.nonempty (hleft.not_mem hsign)
  rw [firstSplit, hlater]
  rfl

/-- The doubled signs for junctions are no text of a sentence. -/
theorem splits_doubled_eq_nil (hwords : Tight level words) {c : Char} (hc : c ∈ ['|', '&']) :
    splits [c, c] (spell words) = [] := by
  apply splits_eq_nil
  have hmarks : ∀ sign : Mark, ∀ other ∈ sign.word, other ∉ ['|', '&'] :=
    Mark.forall_of_all (by decide)
  refine outside_spell hwords.proper ?_ ?_ ?_
  · rintro rfl
    exact absurd hc (by decide)
  · rintro other hplain rfl
    have hspecial : ∀ c ∈ ['|', '&'], c ∈ specials := by decide
    exact hplain.2 (hspecial c hc)
  · rintro sign other hother rfl
    exact hmarks sign c hother hc

theorem spell_ne_nil (hwords : Tight level words) : spell words ≠ [] :=
  Expr.spell_ne_nil hwords.proper hwords.nonempty

/-- A negation that begins a sentence is its first word. -/
theorem negated?_eq_none (hwords : Tight level words) (hlevel : Mark.negation.level < level) :
    negated? (spell words) = none := by
  obtain ⟨shown, rest, rfl⟩ : ∃ shown rest, words = .atom shown :: rest := by
    cases words with
    | nil => exact absurd rfl hwords.nonempty
    | cons word rest =>
        cases word with
        | atom shown => exact ⟨shown, rest, rfl⟩
        | mark sign =>
            have hsign := hwords.begins sign rfl
            have hbound := hwords.binds sign List.mem_cons_self
            rw [hsign] at hbound
            omega
  obtain ⟨hne, hplain, hwordless⟩ := hwords.proper _ List.mem_cons_self
  have hletters : (['n', 'o', 't'] ++ [' ']).isPrefixOf (shown ++ spellRest rest) = false := by
    rw [Bool.eq_false_iff]
    intro hfront
    have hblank : Outside (· ≠ ' ') shown := by
      apply hplain.mono
      rintro c hc rfl
      cases hc.1
    exact hwordless .negation
      (eq_of_isPrefixOf (by decide) hblank (afterWord_spellRest rest) hfront)
  have hsign : ['!'].isPrefixOf (shown ++ spellRest rest) = false := by
    cases shown with
    | nil => exact absurd rfl hne
    | cons c others =>
        rw [Bool.eq_false_iff]
        intro hfront
        rw [List.cons_append, List.isPrefixOf_cons_cons, Bool.and_eq_true, beq_iff_eq] at hfront
        rw [← hfront.1] at hplain
        have hspecial : '!' ∈ specials := by decide
        exact (hplain.of_cons (by decide)).1.2 hspecial
  have hword : after? ['n', 'o', 't', ' '] (shown ++ spellRest rest) = none :=
    if_neg (Bool.not_eq_true _ ▸ hletters)
  have hbang : after? ['!'] (shown ++ spellRest rest) = none :=
    if_neg (Bool.not_eq_true _ ▸ hsign)
  rw [spell, negated?, Word.text, hword]
  exact hbang

end Tight

/-! ## Attempts that give nothing -/

section Attempts

variable {ι β : Type} {input : ι}

theorem firstOf_append {earlier later : List (ι → Outcome (Option β))}
    (hnone : ∀ attempt ∈ earlier, attempt input = .ok none) :
    firstOf input (earlier ++ later) = firstOf input later := by
  induction earlier with
  | nil => rfl
  | cons attempt others ih =>
      rw [List.cons_append, firstOf, hnone attempt List.mem_cons_self]
      exact ih fun other hother => hnone other (List.mem_cons_of_mem _ hother)

theorem firstOf_cons {attempt : ι → Outcome (Option β)} {value : β}
    (hvalue : attempt input = .ok (some value)) (later : List (ι → Outcome (Option β))) :
    firstOf input (attempt :: later) = .ok (some value) := by
  rw [firstOf, hvalue]
  rfl

end Attempts

section Constructs

variable {α : Type} [Arith α] {context : Context α} {operand : Evaluator α}
variable {level bound : Nat} {words left right : List Word}

theorem ternary_none (hwords : Tight level words) (hlevel : Mark.question.level < level) :
    ∀ attempt ∈ [ternary context operand], attempt (spell words) = .ok none := by
  intro attempt hattempt
  have hsplit : firstSplit ['?'] (spell words) = none :=
    hwords.firstSplit_eq_none (fun heq : Mark.question = .negation => nomatch heq) hlevel
  rw [List.mem_singleton.1 hattempt, ternary, hsplit]
  rfl

theorem junctions_none {kind : Junction} (hwords : Tight level words)
    (hlevel : (Mark.junction kind).level < level) :
    ∀ attempt ∈ kind.symbols.map (junction context operand kind),
      attempt (spell words) = .ok none := by
  intro attempt hattempt
  obtain ⟨symbol, hsymbol, rfl⟩ := List.mem_map.1 hattempt
  have hword : firstSplit (Mark.junction kind).symbol (spell words) = none :=
    hwords.firstSplit_eq_none nofun hlevel
  have hdoubled (c : Char) (hc : c ∈ ['|', '&']) : firstSplit [c, c] (spell words) = none := by
    rw [firstSplit, hwords.splits_doubled_eq_nil hc]
    rfl
  have hsplit : firstSplit symbol (spell words) = none := by
    cases kind with
    | disjunction =>
        rcases List.mem_cons.1 hsymbol with rfl | hsymbol
        · exact hword
        · rw [List.mem_singleton.1 hsymbol]
          exact hdoubled '|' (by decide)
    | conjunction =>
        rcases List.mem_cons.1 hsymbol with rfl | hsymbol
        · exact hword
        · rw [List.mem_singleton.1 hsymbol]
          exact hdoubled '&' (by decide)
  rw [junction, hsplit]
  rfl

theorem negation_none (hwords : Tight level words) (hlevel : Mark.negation.level < level) :
    ∀ attempt ∈ [negation context operand], attempt (spell words) = .ok none := by
  intro attempt hattempt
  rw [List.mem_singleton.1 hattempt, negation, hwords.negated?_eq_none hlevel]
  rfl

theorem comparisons_none {kinds : List Comparison} (hproper : ∀ word ∈ words, word.Proper)
    (hkinds : ∀ kind ∈ kinds, Word.mark (.comparison kind) ∉ words) :
    ∀ attempt ∈ kinds.map (comparison context operand), attempt (spell words) = .ok none := by
  intro attempt hattempt
  obtain ⟨kind, hkind, rfl⟩ := List.mem_map.1 hattempt
  have hsplits : splits kind.symbol (spell words) = [] :=
    splits_spell_eq_nil (fun heq : Mark.comparison kind = .negation => nomatch heq) hproper
      (hkinds kind hkind)
  rw [comparison, firstSplit, hsplits]
  rfl

theorem operations_none {kinds : List Operation} (hproper : ∀ word ∈ words, word.Proper)
    (hkinds : ∀ kind ∈ kinds, Word.mark (.operation kind) ∉ words) :
    ∀ attempt ∈ kinds.map (operation context operand), attempt (spell words) = .ok none := by
  intro attempt hattempt
  obtain ⟨kind, hkind, rfl⟩ := List.mem_map.1 hattempt
  have hsplits : splits kind.symbol (spell words) = [] :=
    splits_spell_eq_nil (fun heq : Mark.operation kind = .negation => nomatch heq) hproper
      (hkinds kind hkind)
  rw [operation, hsplits]
  rfl

/-! ## Attempts that give the value -/

/-- The constructs of comparisons and of all that binds more tightly. -/
def tightConstructs (context : Context α) (operand : Evaluator α) : List (Evaluator α) :=
  Comparison.all.map (comparison context operand) ++
    (Operation.all.map (operation context operand) ++
      [history context, callOf context operand, atom context])

theorem constructs_eq (context : Context α) (operand : Evaluator α) :
    constructs context operand = [ternary context operand] ++
      (Junction.disjunction.symbols.map (junction context operand .disjunction) ++
        (Junction.conjunction.symbols.map (junction context operand .conjunction) ++
          ([negation context operand] ++ tightConstructs context operand))) := rfl

theorem firstOf_choice {condition first second : List Word} (hcondition : Tight 1 condition)
    (hfirst : Tight 1 first) (hsecond : Tight 0 second) {flags : Flags} {x y value : Value α}
    (hflags : truthOf context operand (spell condition) = .ok (some flags))
    (hx : operand (spell first) = .ok (some x)) (hy : operand (spell second) = .ok (some y))
    (hvalue : pick context flags (some x) (some y) = .ok (some value)) :
    firstOf (spell (condition ++ .mark .question :: (first ++ .mark .colon :: second)))
      (constructs context operand) = .ok (some value) := by
  have hbranches : Tight 0 (first ++ .mark .colon :: second) :=
    (hfirst.mono (Nat.zero_le 1)).join hsecond.proper hsecond.binds (Nat.le_refl 0)
  have hquestion : firstSplit ['?']
      (spell (condition ++ .mark .question :: (first ++ .mark .colon :: second))) =
        some (spell condition, spell (first ++ .mark .colon :: second)) :=
    hcondition.firstSplit_eq_some hbranches (fun heq : Mark.question = .negation => nomatch heq)
      Nat.zero_lt_one
  have hcolon : firstSplit [':'] (spell (first ++ .mark .colon :: second)) =
      some (spell first, spell second) :=
    hfirst.firstSplit_eq_some hsecond (fun heq : Mark.colon = .negation => nomatch heq)
      Nat.zero_lt_one
  rw [constructs_eq]
  apply firstOf_cons
  rw [ternary, hquestion]
  dsimp only
  rw [hcolon]
  dsimp only
  rw [hflags]
  change (operand (spell first) >>= fun x => operand (spell second) >>= fun y =>
    pick context flags x y) = _
  rw [hx, hy]
  exact hvalue

theorem firstOf_junction {kind : Junction} (hleft : Tight ((Mark.junction kind).level + 1) left)
    (hright : Tight (Mark.junction kind).level right) {p q : Flags}
    (hp : truthOf context operand (spell left) = .ok (some p))
    (hq : truthOf context operand (spell right) = .ok (some q)) :
    firstOf (spell (left ++ .mark (.junction kind) :: right)) (constructs context operand) =
      .ok (some (.flags (List.zipWith kind.apply p q))) := by
  have hwords : Tight (Mark.junction kind).level (left ++ .mark (.junction kind) :: right) :=
    (hleft.mono (Nat.le_succ _)).join hright.proper hright.binds (Nat.le_refl _)
  have hsplit : firstSplit (Mark.junction kind).symbol
      (spell (left ++ .mark (.junction kind) :: right)) = some (spell left, spell right) :=
    hleft.firstSplit_eq_some hright nofun (Nat.lt_succ_self _)
  have hvalue : junction context operand kind (Mark.junction kind).symbol
      (spell (left ++ .mark (.junction kind) :: right)) =
        .ok (some (.flags (List.zipWith kind.apply p q))) := by
    rw [junction, hsplit]
    dsimp only
    rw [bothOf, hp, hq]
    rfl
  rw [constructs_eq]
  cases kind with
  | disjunction =>
      rw [firstOf_append (ternary_none hwords Nat.zero_lt_one)]
      exact firstOf_cons hvalue _
  | conjunction =>
      rw [firstOf_append (ternary_none hwords (by decide)),
        firstOf_append (junctions_none hwords (by decide))]
      exact firstOf_cons hvalue _

theorem firstOf_negation (hwords : Tight Mark.negation.level words) {flags : Flags}
    (hflags : truthOf context operand (spell words) = .ok (some flags)) :
    firstOf (spell (.mark .negation :: words)) (constructs context operand) =
      .ok (some (.flags (flags.map (!·)))) := by
  have hnegated := hwords.negate (Nat.le_refl _)
  have hspell : spell (.mark .negation :: words) = ['n', 'o', 't', ' '] ++ spell words := by
    rw [spell, spellRest_eq_cons hwords.nonempty]
    rfl
  have htext : negated? (['n', 'o', 't', ' '] ++ spell words) = some (spell words) := rfl
  rw [constructs_eq, firstOf_append (ternary_none hnegated (by decide)),
    firstOf_append (junctions_none hnegated (by decide)),
    firstOf_append (junctions_none hnegated (by decide))]
  apply firstOf_cons
  rw [negation, hspell, htext]
  dsimp only
  rw [hflags]
  rfl

/-- A sentence whose operators bind more tightly than a negation is not read as anything looser. -/
theorem firstOf_tight (hwords : Tight level words) (hlevel : Mark.negation.level < level) :
    firstOf (spell words) (constructs context operand) =
      firstOf (spell words) (tightConstructs context operand) := by
  have hloose {sign : Mark} (hsign : sign.level ≤ Mark.negation.level) : sign.level < level :=
    Nat.lt_of_le_of_lt hsign hlevel
  rw [constructs_eq, firstOf_append (ternary_none hwords (hloose (by decide))),
    firstOf_append (junctions_none hwords (hloose (by decide))),
    firstOf_append (junctions_none hwords (hloose (by decide))),
    firstOf_append (negation_none hwords hlevel)]

/-- Both sides of a comparison hold none themselves. -/
theorem firstOf_comparison {kind : Comparison}
    (hleft : Tight ((Mark.comparison kind).level + 1) left)
    (hright : Tight ((Mark.comparison kind).level + 1) right) {value : Value α}
    (hvalue : comparison context operand kind (spell (left ++ .mark (.comparison kind) :: right)) =
      .ok (some value)) :
    firstOf (spell (left ++ .mark (.comparison kind) :: right)) (constructs context operand) =
      .ok (some value) := by
  have hwords : Tight (Mark.comparison kind).level (left ++ .mark (.comparison kind) :: right) :=
    (hleft.mono (Nat.le_succ _)).join hright.proper
      (hright.mono (Nat.le_succ _)).binds (Nat.le_refl _)
  obtain ⟨front, back, hall, hfront⟩ : ∃ front back,
      Comparison.all = front ++ kind :: back ∧ kind ∉ front := by
    have hmem : kind ∈ Comparison.all := by cases kind <;> decide
    exact List.eq_append_cons_of_mem hmem
  have hlevel (other : Comparison) :
      (Mark.comparison other).level < (Mark.comparison kind).level + 1 := Nat.lt_succ_self 4
  have hearlier : ∀ other ∈ front,
      Word.mark (.comparison other) ∉ left ++ .mark (.comparison kind) :: right := by
    intro other hother hmem
    rcases List.mem_append.1 hmem with hmem | hmem
    · exact hleft.not_mem (hlevel other) hmem
    · rcases List.mem_cons.1 hmem with heq | hmem
      · injection heq with heq
        injection heq with heq
        exact hfront (heq ▸ hother)
      · exact hright.not_mem (hlevel other) hmem
  rw [firstOf_tight hwords (Nat.lt_succ_self 3), tightConstructs, hall, List.map_append,
    List.append_assoc, firstOf_append (comparisons_none hwords.proper hearlier)]
  exact firstOf_cons hvalue _

/-- An operation is split at the last of its signs, so that equal operations associate to the
left. -/
theorem firstOf_operation {kind : Operation} (hleft : Tight (Mark.operation kind).level left)
    (hright : Tight ((Mark.operation kind).level + 1) right) {xs ys : Series α}
    (hx : numericOf context operand (spell left) = .ok (some xs))
    (hy : numericOf context operand (spell right) = .ok (some ys)) :
    firstOf (spell (left ++ .mark (.operation kind) :: right)) (constructs context operand) =
      .ok (some (.series (List.zipWith kind.apply xs ys))) := by
  have hwords : Tight (Mark.operation kind).level (left ++ .mark (.operation kind) :: right) :=
    hleft.join hright.proper (hright.mono (Nat.le_succ _)).binds (Nat.le_refl _)
  have hlevel : 4 < (Mark.operation kind).level := by cases kind <;> decide
  obtain ⟨front, back, hall, hfront⟩ : ∃ front back, Operation.all = front ++ kind :: back ∧
      ∀ other ∈ front, (Mark.operation other).level < (Mark.operation kind).level := by
    cases kind with
    | add => exact ⟨[], _, rfl, nofun⟩
    | subtract => exact ⟨[.add], _, rfl, by decide⟩
    | multiply => exact ⟨[.add, .subtract], _, rfl, by decide⟩
    | divide => exact ⟨[.add, .subtract, .multiply], _, rfl, by decide⟩
  obtain ⟨earlier, hsplits⟩ := splits_eq_concat
    (fun heq : Mark.operation kind = .negation => nomatch heq) hleft.proper hleft.nonempty
      hright.proper hright.nonempty (hright.not_mem (Nat.lt_succ_self _))
  have hvalue : operation context operand kind (spell (left ++ .mark (.operation kind) :: right)) =
      .ok (some (.series (List.zipWith kind.apply xs ys))) := by
    change splits kind.symbol _ = _ at hsplits
    rw [operation, hsplits, List.reverse_append, List.map_append]
    apply firstOf_cons
    dsimp only
    rw [operationAt, bothOf, hx, hy]
    rfl
  rw [firstOf_tight hwords (Nat.lt_trans (by decide) hlevel), tightConstructs,
    firstOf_append (comparisons_none hwords.proper fun other _ => hwords.not_mem hlevel), hall,
    List.map_append, List.append_assoc, firstOf_append (operations_none hwords.proper
      fun other hother => hwords.not_mem (hfront other hother))]
  exact firstOf_cons hvalue _

/-- An atom is read as a name with its history, as a call or as itself. -/
theorem firstOf_atom {shown : Chars} (hshown : (Word.atom shown).Proper) :
    firstOf shown (constructs context operand) =
      firstOf shown [history context, callOf context operand, atom context] := by
  have hwords : Tight 9 [.atom shown] := .atom hshown 9
  have hcomparisons : ∀ kind ∈ Comparison.all, Word.mark (.comparison kind) ∉ [.atom shown] :=
    fun kind _ hmem => nomatch List.mem_singleton.1 hmem
  have hoperations : ∀ kind ∈ Operation.all, Word.mark (.operation kind) ∉ [.atom shown] :=
    fun kind _ hmem => nomatch List.mem_singleton.1 hmem
  rw [← spell_atom shown, firstOf_tight hwords (by decide), tightConstructs,
    firstOf_append (comparisons_none hwords.proper hcomparisons),
    firstOf_append (operations_none hwords.proper hoperations)]

/-! ## One level of evaluation -/

theorem step_eq_firstOf {text : Chars} (htext : IsTrimmed text) (hne : text ≠ [])
    (hopen : isWrapped text = false) :
    step context operand text = firstOf text (constructs context operand) := by
  have hempty : text.isEmpty = false := List.isEmpty_eq_false_iff.2 hne
  rw [step, trim_of_isTrimmed htext hne, hempty, hopen, if_neg Bool.false_ne_true,
    if_neg Bool.false_ne_true]

/-- Brackets around a whole sentence are dropped. -/
theorem step_bracketed (hproper : ∀ word ∈ words, word.Proper) :
    step context operand ('(' :: (spell words ++ [')'])) = operand (spell words) := by
  have htext : IsTrimmed ('(' :: (spell words ++ [')'])) := by
    constructor
    · intro c hc
      injection hc with hc
      rw [← hc]
      rfl
    · intro c hc
      rw [← List.cons_append, List.getLast?_concat] at hc
      injection hc with hc
      rw [← hc]
      rfl
  rw [step, trim_of_isTrimmed htext (List.cons_ne_nil _ _), isWrapped_wrap (closed_spell hproper), if_pos rfl,
    List.isEmpty_cons, if_neg Bool.false_ne_true, List.drop_one, List.tail_cons, List.dropLast_concat]

end Constructs

end Backtest.Expr
