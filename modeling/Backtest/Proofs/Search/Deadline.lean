import Backtest.Clock
import Backtest.Proofs.Search.Period
import Backtest.Random

/-!
# Searches against the clock

A search reads the clock once before each group of combinations.  As long as no reading is late, the
groups come to one pass over all combinations (`visitGroups_timely`); the first late reading ends
the pass after the groups before it (`visitGroups_late`).  So a search that runs out of time is the
search without a deadline over the combinations of those groups, but for the remark that time ran
out, and a search that does not is the search without a deadline (`deadline_truncates`).
-/

namespace Backtest.Search

variable {α : Type}

/-! ## Groups -/

section Groups

variable {β : Type} {length fuel : Nat}

/-- The first groups hold the first entries. -/
theorem flatten_take_groupsOf (count : Nat) {xs : List β} (hfuel : xs.length ≤ fuel)
    (hlength : 0 < length) :
    ((groupsOf length fuel xs).take count).flatten = xs.take (length * count) := by
  induction fuel generalizing xs count with
  | zero =>
      rw [List.eq_nil_of_length_eq_zero (Nat.le_zero.1 hfuel), List.take_nil]
      cases count <;> rfl
  | succ fuel ih =>
      cases xs with
      | nil => cases count <;> simp [groupsOf]
      | cons first rest =>
          cases count with
          | zero => rfl
          | succ count =>
              have hrest : ((first :: rest).drop length).length ≤ fuel := by
                rw [List.length_drop]
                omega
              rw [groupsOf, List.take_succ_cons, List.flatten_cons, ih count hrest, Nat.mul_succ,
                Nat.add_comm, List.take_add]
              exact List.cons_ne_nil first rest

theorem flatten_groupsOf {xs : List β} (hfuel : xs.length ≤ fuel) (hlength : 0 < length) :
    (groupsOf length fuel xs).flatten = xs := by
  have htake := flatten_take_groupsOf ((groupsOf length fuel xs).length + xs.length) hfuel hlength
  rw [List.take_of_length_le (Nat.le_add_right _ _), List.take_of_length_le] at htake
  · exact htake
  · exact Nat.le_trans (Nat.le_add_left _ _) (Nat.le_mul_of_pos_left _ hlength)

/-- There is a group for every multiple of the length below the number of entries. -/
theorem lt_length_groupsOf_iff {count : Nat} {xs : List β} (hfuel : xs.length ≤ fuel)
    (hlength : 0 < length) :
    count < (groupsOf length fuel xs).length ↔ length * count < xs.length := by
  induction fuel generalizing xs count with
  | zero =>
      rw [List.eq_nil_of_length_eq_zero (Nat.le_zero.1 hfuel)]
      exact iff_of_false (Nat.not_lt_zero _) (Nat.not_lt_zero _)
  | succ fuel ih =>
      cases xs with
      | nil => exact iff_of_false (Nat.not_lt_zero _) (Nat.not_lt_zero _)
      | cons first rest =>
          have hrest : ((first :: rest).drop length).length ≤ fuel := by
            rw [List.length_drop]
            omega
          rw [groupsOf, List.length_cons]
          · cases count with
            | zero => simp
            | succ count =>
                rw [Nat.succ_lt_succ_iff, ih hrest, List.length_drop, Nat.mul_succ]
                omega
          · exact List.cons_ne_nil first rest

end Groups

/-! ## Readings -/

/-- The result of one repetition of an effect, counted from zero. -/
def readingAt {κ β : Type} (effect : StateM κ β) (state : κ) : Nat → β
  | 0 => (effect.run state).1
  | count + 1 => readingAt effect (effect.run state).2 count

variable [Arith α]

/-- A reading of the clock, in seconds, is past a limit in milliseconds. -/
def isPast (limit : Number α) (seconds : α) : Bool :=
  limit.below (.real (seconds * Arith.ofNat 1000))

/-- The tests of a deadline are those of the readings of the clock. -/
theorem readingAt_isLate {κ : Type} (now : StateM κ α) (limit : Number α) (clock : κ)
    (count : Nat) :
    readingAt (isLate now (some limit)) clock count = isPast limit (readingAt now clock count) := by
  induction count generalizing clock with
  | zero => rfl
  | succ count ih => exact ih (now.run clock).2

/-- Without a deadline no test is late. -/
theorem readingAt_never {κ : Type} (now : StateM κ α) (clock : κ) (count : Nat) :
    readingAt (isLate now none) clock count = false := by
  induction count with
  | zero => rfl
  | succ count ih => exact ih

/-! ## Groups of visits -/

section Visits

variable {κ : Type} {late : StateM κ Bool} {plan : Plan α} {groups : List (List (Params α))}

/-- Without a late reading, groups of visits come to one pass over the combinations. -/
theorem visitGroups_timely {progress : Progress α} {clock : κ}
    (htimely : ∀ count < groups.length, readingAt late clock count = false) :
    ((visitGroups late plan groups progress).run clock).1 =
      (groups.flatten.foldlM (visit plan) progress).map (·, false) := by
  induction groups generalizing progress clock with
  | nil => rfl
  | cons group rest ih =>
      have hfirst : (late.run clock).1 = false := htimely 0 (Nat.succ_pos _)
      rw [run_visitGroups_cons, List.flatten_cons, List.foldlM_append]
      dsimp only
      rw [hfirst, if_neg Bool.false_ne_true]
      cases group.foldlM (visit plan) progress with
      | error fault => rfl
      | ok middle =>
          exact ih fun count hcount => htimely (count + 1) (Nat.succ_lt_succ hcount)

/-- The first late reading ends the pass after the groups before it. -/
theorem visitGroups_late {progress : Progress α} {clock : κ} {count : Nat}
    (hcount : count < groups.length) (hlate : readingAt late clock count = true)
    (htimely : ∀ earlier < count, readingAt late clock earlier = false) :
    ((visitGroups late plan groups progress).run clock).1 =
      ((groups.take count).flatten.foldlM (visit plan) progress).map (·, true) := by
  induction groups generalizing progress clock count with
  | nil => exact absurd hcount (Nat.not_lt_zero _)
  | cons group rest ih =>
      rw [run_visitGroups_cons]
      dsimp only
      cases count with
      | zero =>
          have hfirst : (late.run clock).1 = true := hlate
          rw [hfirst, if_pos rfl]
          rfl
      | succ count =>
          have hfirst : (late.run clock).1 = false := htimely 0 (Nat.succ_pos _)
          rw [hfirst, if_neg Bool.false_ne_true, List.take_succ_cons, List.flatten_cons,
            List.foldlM_append]
          cases group.foldlM (visit plan) progress with
          | error fault => rfl
          | ok middle =>
              exact ih (Nat.lt_of_succ_lt_succ hcount) hlate
                fun earlier hearlier => htimely (earlier + 1) (Nat.succ_lt_succ hearlier)

end Visits

/-! ## Searches -/

/-- What a search finds that is never late: it passes over all combinations and ranks the
results. -/
def pass (enumeration : Enumeration α) (plan : Plan α) : Outcome (Findings α) := do
  let progress ← enumeration.combinations.foldlM (visit plan) ⟨0, []⟩
  match enumeration.fault with
  | some fault => .error fault
  | none => findingsOf plan.settings progress false

/-- An enumeration that ends after a count of combinations. -/
def Enumeration.cut (enumeration : Enumeration α) (count : Nat) : Enumeration α :=
  ⟨enumeration.combinations.take count, none⟩

/-- Findings of a search that ran out of time. -/
def Findings.late (findings : Findings α) : Findings α := { findings with timedOut := true }

theorem findingsOf_late (settings : Settings α) (progress : Progress α) :
    findingsOf settings progress true = (findingsOf settings progress false).map Findings.late := by
  unfold findingsOf
  cases rank (·.metrics) settings.metric progress.results <;> rfl

section Explorations

variable {κ : Type} {now : StateM κ α} {enumeration : Enumeration α} {plan : Plan α} {clock : κ}

theorem explore_timely
    (htimely : ∀ group, groupLength * group < enumeration.combinations.length →
      readingAt (isLate now plan.settings.deadline) clock group = false) :
    ((explore now enumeration plan).run clock).1 = pass enumeration plan := by
  have hgroups : ∀ group < (groupsOf groupLength enumeration.combinations.length
      enumeration.combinations).length,
      readingAt (isLate now plan.settings.deadline) clock group = false :=
    fun group hgroup => htimely group ((lt_length_groupsOf_iff Nat.le.refl (by decide)).1 hgroup)
  rw [run_explore, visits, visitGroups_timely hgroups, flatten_groupsOf Nat.le.refl (by decide),
    pass]
  cases enumeration.combinations.foldlM (visit plan) ⟨0, []⟩ <;> rfl

theorem explore_late {group : Nat}
    (hinside : groupLength * group < enumeration.combinations.length)
    (hlate : readingAt (isLate now plan.settings.deadline) clock group = true)
    (htimely : ∀ earlier < group,
      readingAt (isLate now plan.settings.deadline) clock earlier = false) :
    ((explore now enumeration plan).run clock).1 =
      (pass (enumeration.cut (groupLength * group)) plan).map Findings.late := by
  have hgroup := (lt_length_groupsOf_iff Nat.le.refl (by decide)).2 hinside
  rw [run_explore, visits, visitGroups_late hgroup hlate htimely,
    flatten_take_groupsOf group Nat.le.refl (by decide), pass, Enumeration.cut]
  dsimp only
  cases (enumeration.combinations.take (groupLength * group)).foldlM (visit plan) ⟨0, []⟩ with
  | error fault => rfl
  | ok progress => exact findingsOf_late plan.settings progress

/-- Without a deadline the clock does not matter. -/
theorem explore_untimed (hdeadline : plan.settings.deadline = none) :
    ((explore now enumeration plan).run clock).1 = pass enumeration plan := by
  apply explore_timely
  intro group _
  rw [hdeadline]
  exact readingAt_never now clock group

end Explorations

/-- The same search without a deadline. -/
def Settings.untimed (settings : Settings α) : Settings α := { settings with deadline := none }

def Plan.untimed (plan : Plan α) : Plan α := { plan with settings := plan.settings.untimed }

theorem planOf_untimed {bars : List (Bar α)} {settings : Settings α} {plan : Plan α}
    (hplan : planOf bars settings = .ok plan) :
    planOf bars settings.untimed = .ok plan.untimed := by
  have hmetric := mem_names_of_planOf hplan
  obtain ⟨prices, axes, target, hprices, haxes, htarget, rfl⟩ := planOf_parts hplan
  have huntimed : targetOf settings.untimed = .ok target := htarget
  exact planOf_of_parts hmetric hprices haxes huntimed

theorem pass_untimed (enumeration : Enumeration α) (plan : Plan α) :
    pass enumeration plan.untimed = pass enumeration plan := rfl

/-- The first group that a search does not visit: the reading before it is past the limit, and no
earlier one is. -/
structure StopsBefore {κ : Type} (now : StateM κ α) (clock : κ) (limit : Number α) (size : Nat)
    (group : Nat) : Prop where
  inside : groupLength * group < size
  past : isPast limit (readingAt now clock group) = true
  first : ∀ earlier < group, isPast limit (readingAt now clock earlier) = false

/-- A size that no group stops a search before is searched in time. -/
theorem timely_of_not_stopsBefore {κ : Type} {now : StateM κ α} {clock : κ} {limit : Number α}
    {size : Nat} (hnever : ∀ group, ¬ StopsBefore now clock limit size group) (group : Nat)
    (hinside : groupLength * group < size) : isPast limit (readingAt now clock group) = false := by
  induction group using Nat.strongRecOn with
  | ind group ih =>
      apply Bool.eq_false_iff.2
      intro hpast
      refine hnever group ⟨hinside, hpast, fun earlier hearlier => ih earlier hearlier ?_⟩
      exact Nat.lt_of_le_of_lt (Nat.mul_le_mul_left _ (Nat.le_of_lt hearlier)) hinside

theorem timedOut_pass {enumeration : Enumeration α} {plan : Plan α} {findings : Findings α}
    (hfindings : pass enumeration plan = .ok findings) : findings.timedOut = false := by
  obtain ⟨progress, _, hfindings⟩ := Outcome.bind_eq_ok.1 hfindings
  split at hfindings
  · exact nomatch hfindings
  · obtain ⟨ranked, _, hfindings⟩ := Outcome.bind_eq_ok.1 hfindings
    injection hfindings with hfindings
    rw [← hfindings]

/-- A search that is late before a group finds what the search without a deadline finds among the
combinations of the groups before it, and says that it ran out of time.  A search that is never late
is the search without a deadline. -/
theorem deadline_truncates {κ σ : Type} {now : StateM κ α} {draw : RandomSource σ} {seed : σ}
    {bars : List (Bar α)} {settings : Settings α} {plan : Plan α} {limit : Number α} {clock : κ}
    (hdeadline : settings.deadline = some limit) (hplan : planOf bars settings = .ok plan) :
    let visited := enumerate draw seed plan.axes settings.cap
    let found := ((optimize now draw seed bars settings).run clock).1
    planOf bars settings.untimed = .ok plan.untimed ∧
      (∀ group, StopsBefore now clock limit visited.combinations.length group →
        found = ⟨samplingWarnings plan,
          ((explore now (visited.cut (groupLength * group)) plan.untimed).run clock).1.map
            Findings.late⟩) ∧
      ((∀ group, ¬ StopsBefore now clock limit visited.combinations.length group) →
        found = ((optimize now draw seed bars settings.untimed).run clock).1 ∧
          ∀ findings, found.outcome = .ok findings → findings.timedOut = false) := by
  intro visited found
  have hfound : found = ⟨samplingWarnings plan, ((explore now visited plan).run clock).1⟩ :=
    optimize_of_planOf hplan
  have hlimit : plan.settings.deadline = some limit := by
    rw [(planOf_eq_ok hplan).1, hdeadline]
  have huntimed := planOf_untimed hplan
  refine ⟨huntimed, ?_, ?_⟩
  · intro group hstops
    have hlate : ∀ count, readingAt (isLate now plan.settings.deadline) clock count =
        isPast limit (readingAt now clock count) := by
      rw [hlimit]
      exact readingAt_isLate now limit clock
    have hlast : readingAt (isLate now plan.settings.deadline) clock group = true := by
      rw [hlate, hstops.past]
    have hfirst : ∀ earlier < group,
        readingAt (isLate now plan.settings.deadline) clock earlier = false := by
      intro earlier hearlier
      rw [hlate, hstops.first earlier hearlier]
    rw [hfound, explore_late hstops.inside hlast hfirst, explore_untimed rfl, pass_untimed]
  · intro hnever
    have htimely : ∀ group, groupLength * group < visited.combinations.length →
        readingAt (isLate now plan.settings.deadline) clock group = false := by
      intro group hinside
      rw [hlimit, readingAt_isLate, timely_of_not_stopsBefore hnever group hinside]
    rw [hfound, explore_timely htimely]
    constructor
    · rw [optimize_of_planOf huntimed, explore_untimed rfl, pass_untimed]
      rfl
    · intro findings hfindings
      exact timedOut_pass hfindings

/-- A search of sixty fast periods with half a second of time. -/
def timedSearch : Settings Exact :=
  { averagesSearch 40 [⟨"fastLength", .int 1, .int 60, .int 1, "int", "", true⟩] with
    deadline := some (.int 500) }

/-- A clock that shows one second before the second group. -/
def lateReadings : Clock.Readings Exact := [Arith.zero, Arith.one]

/-- On this clock the search has tested those of the first fifty fast periods that are below
forty. -/
theorem deadline_truncates_secondGroup :
    ∃ plan, planOf threeBars timedSearch = .ok plan ∧
      StopsBefore Clock.read lateReadings (.int 500)
        (enumerate Random.draw 0 plan.axes timedSearch.cap).combinations.length 1 ∧
      ((optimize Clock.read Random.draw 0 threeBars timedSearch).run lateReadings).1 =
        ⟨samplingWarnings plan, ((explore Clock.read
          ((enumerate Random.draw 0 plan.axes timedSearch.cap).cut 50) plan.untimed).run
            lateReadings).1.map Findings.late⟩ ∧
      ((optimize Clock.read Random.draw 0 threeBars timedSearch).run
        lateReadings).1.outcome.toOption.map (fun (findings : Findings Exact) =>
          (findings.tested, findings.timedOut)) = some (39, true) := by
  have hsize : (planOf threeBars timedSearch).toOption.map (fun (plan : Plan Exact) =>
      (enumerate Random.draw 0 plan.axes timedSearch.cap).combinations.length) = some 60 := by
    decide +kernel
  obtain ⟨plan, hplan, hlength⟩ := Option.map_eq_some_iff.1 hsize
  have hplan : planOf threeBars timedSearch = .ok plan := Outcome.toOption_eq_some.1 hplan
  have hstops : StopsBefore Clock.read lateReadings (.int 500)
      (enumerate Random.draw 0 plan.axes timedSearch.cap).combinations.length 1 := by
    refine ⟨?_, by decide +kernel, ?_⟩
    · rw [hlength]
      decide
    · intro earlier hearlier
      rw [Nat.lt_one_iff.1 hearlier]
      decide +kernel
  exact ⟨plan, hplan, hstops, (deadline_truncates rfl hplan).2.1 1 hstops, by decide +kernel⟩

end Backtest.Search
