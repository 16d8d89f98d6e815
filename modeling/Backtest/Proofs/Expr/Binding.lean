import Backtest.Proofs.Expr.Length
import Backtest.Proofs.Expr.Meaning
import Backtest.Proofs.Record

/-!
# What a run binds names to

A run starts with the prices under their names and binds its parameters over them.  A parameter that
is a finite number is bound to that number, whatever else is bound, and a price keeps its name
unless a parameter takes it.
-/

namespace Backtest

open Text Backtest.Expr

variable {α : Type} [Arith α]

/-- An integer or a number that is finite. -/
def Scalar.IsFinite : Scalar α → Prop
  | .int n => ∃ x : α, Arith.ofInt? n = some x ∧ Arith.isFinite x = true
  | .real x => Arith.isFinite x = true
  | _ => False

/-- A finite scalar stands for a number, and it is this number that it is bound to. -/
theorem Scalar.IsFinite.exists_number {param : Scalar α} (hparam : param.IsFinite) :
    ∃ x, Arith.isFinite x = true ∧ param.toReal = .ok x ∧
      Value.ofScalar param = .ok (some (.number x)) := by
  cases param with
  | int n =>
      obtain ⟨x, hx, hfinite⟩ := hparam
      have hint : Scalar.ofInt n = .ok x := by rw [Scalar.ofInt, hx]
      refine ⟨x, hfinite, hint, ?_⟩
      rw [Value.ofScalar, hint]
      rfl
  | real x => exact ⟨x, hparam, rfl, rfl⟩
  | _ => exact hparam.elim

namespace Environment

/-- The parameters of a run can all be bound. -/
def Bindable (params : Params α) : Prop :=
  ∀ entry ∈ params, ∃ value, Value.ofScalar entry.2 = .ok value

theorem exists_withParams (env : Environment α) {params : Params α} (hparams : Bindable params) :
    ∃ next, withParams env params = .ok next := by
  induction params generalizing env with
  | nil => exact ⟨env, rfl⟩
  | cons entry rest ih =>
      obtain ⟨value, hvalue⟩ := hparams entry List.mem_cons_self
      obtain ⟨next, hnext⟩ := ih (Record.put env entry.1 value) fun other hother =>
        hparams other (List.mem_cons_of_mem _ hother)
      refine ⟨next, ?_⟩
      rw [withParams, hvalue]
      exact hnext

variable {env next : Environment α} {params : Params α}

theorem get?_withParams_of_not_mem (hnext : withParams env params = .ok next) {name : String}
    (hname : name ∉ Record.names params) : Record.get? next name = Record.get? env name := by
  induction params generalizing env with
  | nil =>
      injection hnext with hnext
      rw [hnext]
  | cons entry rest ih =>
      obtain ⟨value, _, hnext⟩ := Outcome.bind_eq_ok.1 hnext
      simp only [Record.names, List.map_cons, List.mem_cons, not_or] at hname
      rw [ih hnext hname.2, Record.get?_put, if_neg (Ne.symm hname.1)]

theorem value?_withParams_of_not_mem (hnext : withParams env params = .ok next) {name : String}
    (hname : name ∉ Record.names params) : next.value? name = env.value? name :=
  congrArg Option.join (get?_withParams_of_not_mem hnext hname)

/-- A parameter of distinct ones has its value when all are bound. -/
theorem value?_withParams_of_mem (hdistinct : Record.Distinct params)
    (hnext : withParams env params = .ok next) {name : String} {param : Scalar α}
    (hparam : (name, param) ∈ params) {value : Option (Value α)}
    (hvalue : Value.ofScalar param = .ok value) : next.value? name = value := by
  induction params generalizing env with
  | nil => exact nomatch hparam
  | cons entry rest ih =>
      obtain ⟨bound, hbound, hnext⟩ := Outcome.bind_eq_ok.1 hnext
      obtain ⟨hfresh, hrest⟩ := List.nodup_cons.1 hdistinct
      rcases List.mem_cons.1 hparam with rfl | hparam
      · rw [hvalue] at hbound
        injection hbound with hbound
        rw [value?, get?_withParams_of_not_mem hnext hfresh, Record.get?_put, if_pos rfl, hbound]
        rfl
      · exact ih hrest hnext hparam

omit [Arith α] in
theorem value?_bind_self (env : Environment α) (name : String) (value : Value α) :
    (env.bind name value).value? name = some value := by
  rw [Environment.bind, value?_put, if_pos rfl]

omit [Arith α] in
theorem value?_bind_of_ne (env : Environment α) {name other : String} (hne : name ≠ other)
    (value : Value α) : (env.bind name value).value? other = env.value? other := by
  rw [Environment.bind, value?_put, if_neg hne]

/-! ## Names -/

omit [Arith α] in
theorem named_put (hnamed : Named env) {name : String} (hname : isIdentifier name.toList = true)
    (value : Option (Value α)) : Named (Record.put env name value) := by
  intro entry hentry
  rcases Record.mem_of_mem_put hentry with rfl | hentry
  · exact hname
  · exact hnamed entry hentry

theorem named_ofPrices (prices : Prices α) : Named (ofPrices prices) := by
  have hreserved : ∀ name ∈ reserved, isIdentifier name.toList = true := by decide +kernel
  intro entry hentry
  have hmem : entry.1 ∈ (ofPrices prices).map (·.1) := List.mem_map_of_mem hentry
  exact hreserved _ hmem

theorem named_withParams (hnamed : Named env)
    (hparams : ∀ entry ∈ params, isIdentifier entry.1.toList = true)
    (hnext : withParams env params = .ok next) : Named next := by
  induction params generalizing env with
  | nil =>
      injection hnext with hnext
      exact hnext ▸ hnamed
  | cons entry rest ih =>
      obtain ⟨value, _, hnext⟩ := Outcome.bind_eq_ok.1 hnext
      refine ih (named_put hnamed (hparams entry List.mem_cons_self) value) ?_ hnext
      exact fun other hother => hparams other (List.mem_cons_of_mem _ hother)

end Environment

/-! ## Values of printed terms -/

namespace Expr

/-- A printed term that has a meaning has it as its value. -/
theorem evaluate?_print {context : Context α} (hnamed : Named context.env) {term : Term}
    {value : Value α} (hmeaning : meaning context term = some value) :
    evaluate? context term.print = .ok (some value) := by
  have htrim : trim term.print = term.print :=
    trim_of_isTrimmed (isTrimmed_spell term.tight.proper) term.tight.spell_ne_nil
  have hfinds := finds_evaluateWithin hnamed (term.print.length + 1)
  rw [evaluate?, htrim]
  exact hfinds.alone term value (Nat.lt_succ_self _) hmeaning

end Expr

end Backtest
