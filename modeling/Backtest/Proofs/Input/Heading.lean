import Backtest.Input.Declaration
import Backtest.Proofs.Text.Cut

/-!
# Headings of declarations

Whether a declaration follows a name is decided by the text up to the next opening bracket and by
the text from there to the next closing one (`declaration?_eq_some_iff`).  The text before the
bracket is a *heading*: an equality sign, the word `input` and possibly a kind, with white space
between them.  Headings hold neither brackets nor quotes, and no second equality sign.
-/

namespace Backtest.Input

open Text

/-- The kind that a heading gives, if a text is a heading. -/
def heading? (before : Chars) : Option (Option InputKind) := do
  let equals ← after? ['='] (trimLeft before)
  let (kind, rest) := takeKind (← after? "input".toList (trimLeft equals))
  if (trimLeft rest).isEmpty then some kind else none

/-! ## Kinds -/

/-- The text that gives a kind; none for a missing one. -/
def kindText : Option InputKind → Chars
  | none => []
  | some kind => '.' :: kind.name.toList

theorem kindText_takeKind (text : Chars) :
    kindText (takeKind text).1 ++ (takeKind text).2 = text := by
  rw [takeKind]
  split
  · next kind rest hfound =>
      obtain ⟨found, _, hmap⟩ := List.exists_of_findSome?_eq_some hfound
      obtain ⟨later, hafter, hlater⟩ := Option.map_eq_some_iff.1 hmap
      injection hlater with hkind hrest
      rw [← hkind, ← hrest]
      exact (after?_eq_some_iff.1 hafter).symm
  · rfl

/-- The kind before an opening bracket. -/
theorem takeKind_append_cons (front back : Chars) :
    takeKind (front ++ '(' :: back) = ((takeKind front).1, (takeKind front).2 ++ '(' :: back) := by
  have hkind (kind : InputKind) : after? ('.' :: kind.name.toList) (front ++ '(' :: back) =
      (after? ('.' :: kind.name.toList) front).map (· ++ '(' :: back) := by
    apply after?_append_cons
    cases kind <;> decide
  have hfound : (InputKind.all.findSome? fun kind =>
      (after? ('.' :: kind.name.toList) (front ++ '(' :: back)).map fun rest => (kind, rest)) =
      (InputKind.all.findSome? fun kind =>
        (after? ('.' :: kind.name.toList) front).map fun rest => (kind, rest)).map
          fun entry => (entry.1, entry.2 ++ '(' :: back) := by
    simp only [hkind, List.map_findSome?, Function.comp_def, Option.map_map]
  rw [takeKind, takeKind, hfound]
  cases InputKind.all.findSome? fun kind =>
    (after? ('.' :: kind.name.toList) front).map fun rest => (kind, rest) <;> rfl

/-! ## The bracket behind a heading -/

theorem mem_of_mem_trimLeft {c : Char} {text : Chars} (hc : c ∈ trimLeft text) : c ∈ text :=
  (trimLeft_isSuffix text).subset hc

theorem mem_of_mem_after? {c : Char} {start text rest : Chars}
    (hafter : after? start text = some rest) (hc : c ∈ rest) : c ∈ text := by
  rw [after?_eq_some_iff.1 hafter]
  exact List.mem_append_right start hc

theorem mem_of_mem_takeKind {c : Char} {text : Chars} (hc : c ∈ (takeKind text).2) : c ∈ text := by
  rw [← kindText_takeKind text]
  exact List.mem_append_right _ hc

/-- A declaration begins with a heading and an opening bracket, and ends at the next closing one. -/
theorem declaration?_append_cons (name : Chars) {before : Chars} (hbefore : '(' ∉ before)
    (inner : Chars) : declaration? name (before ++ '(' :: inner) =
      (heading? before).bind fun kind => (cutAt ')' inner).map fun entry =>
        (⟨name, before ++ ['('], kind, entry.1⟩, entry.2) := by
  have hhead : (before ++ '(' :: inner).take ((before ++ '(' :: inner).length - inner.length) =
      before ++ ['('] := by
    rw [← List.singleton_append, ← List.append_assoc, List.length_append, Nat.add_sub_cancel,
      List.take_left']
    rfl
  have hequal : '(' ∉ ['='] := by decide
  have hinput : '(' ∉ "input".toList := by decide
  rw [declaration?, heading?, trimLeft_append_cons (by decide), after?_append_cons hequal]
  cases hequals : after? ['='] (trimLeft before) with
  | none => rfl
  | some equals =>
      simp only [Option.map_some, Option.bind_eq_bind, Option.bind_some]
      rw [trimLeft_append_cons (by decide), after?_append_cons hinput]
      cases hbody : after? "input".toList (trimLeft equals) with
      | none => rfl
      | some body =>
          simp only [Option.map_some, Option.bind_some]
          rw [takeKind_append_cons, trimLeft_append_cons (by decide)]
          have hrest : '(' ∉ trimLeft (takeKind body).2 := by
            intro hmem
            have hbody := mem_of_mem_after? hbody (mem_of_mem_takeKind (mem_of_mem_trimLeft hmem))
            exact hbefore (mem_of_mem_trimLeft (mem_of_mem_after? hequals
              (mem_of_mem_trimLeft hbody)))
          cases hlast : trimLeft (takeKind body).2 with
          | nil =>
              have hafter : after? ['('] ([] ++ '(' :: inner) = some inner :=
                after?_eq_some_iff.2 rfl
              rw [hafter, Option.bind_some, hhead]
              cases cutAt ')' inner <;> rfl
          | cons c rest =>
              have hnone : after? ['('] (c :: rest ++ '(' :: inner) = none := by
                cases hafter : after? ['('] (c :: rest ++ '(' :: inner) with
                | none => rfl
                | some later =>
                    injection after?_eq_some_iff.1 hafter with hc
                    rw [hlast, hc] at hrest
                    exact absurd List.mem_cons_self hrest
              rw [hnone]
              rfl

theorem declaration?_eq_none_of_not_mem (name : Chars) {text : Chars} (htext : '(' ∉ text) :
    declaration? name text = none := by
  cases hfound : declaration? name text with
  | none => rfl
  | some entry =>
      simp only [declaration?, Option.bind_eq_bind, Option.bind_eq_some_iff] at hfound
      obtain ⟨equals, hequals, body, hbody, inner, hinner, _⟩ := hfound
      have hopen : '(' ∈ trimLeft (takeKind body).2 := by
        rw [after?_eq_some_iff.1 hinner]
        exact List.mem_cons_self
      have hbody := mem_of_mem_after? hbody (mem_of_mem_takeKind (mem_of_mem_trimLeft hopen))
      exact absurd (mem_of_mem_trimLeft (mem_of_mem_after? hequals (mem_of_mem_trimLeft hbody)))
        htext

/-- What a declaration is made of. -/
theorem declaration?_eq_some_iff {name text later : Chars} {found : Declaration} :
    declaration? name text = some (found, later) ↔
      ∃ before kind arguments, text = before ++ '(' :: (arguments ++ ')' :: later) ∧
        '(' ∉ before ∧ ')' ∉ arguments ∧ heading? before = some kind ∧
        found = ⟨name, before ++ ['('], kind, arguments⟩ := by
  constructor
  · intro hfound
    by_cases hopen : '(' ∈ text
    · obtain ⟨before, inner, rfl, hbefore⟩ := List.eq_append_cons_of_mem hopen
      rw [declaration?_append_cons name hbefore, Option.bind_eq_some_iff] at hfound
      obtain ⟨kind, hkind, hcut⟩ := hfound
      obtain ⟨⟨arguments, others⟩, hcut, hentry⟩ := Option.map_eq_some_iff.1 hcut
      injection hentry with hfound hothers
      obtain ⟨rfl, harguments⟩ := cutAt_eq_some_iff.1 hcut
      exact ⟨before, kind, arguments, by rw [← hothers], hbefore, harguments, hkind, hfound.symm⟩
    · rw [declaration?_eq_none_of_not_mem name hopen] at hfound
      exact nomatch hfound
  · rintro ⟨before, kind, arguments, rfl, hbefore, harguments, hkind, rfl⟩
    rw [declaration?_append_cons name hbefore, hkind, Expr.cutAt_append harguments]
    rfl

/-! ## The characters of a heading -/

/-- Characters of which a heading holds none, but for one equality sign. -/
def marks : Chars := ['=', '(', ')', '"', '\'']

theorem not_mem_marks_of_isBlank {c : Char} (hc : isBlank c = true) : c ∉ marks := by
  intro hmem
  have hall : ∀ c ∈ marks, isBlank c = false := by decide
  rw [hall c hmem] at hc
  exact nomatch hc

/-- A heading has one equality sign, with white space before it and no further mark behind it. -/
theorem heading?_eq_some {before : Chars} {kind : Option InputKind}
    (hkind : heading? before = some kind) :
    ∃ front back, before = front ++ '=' :: back ∧ (∀ c ∈ front, isBlank c = true) ∧
      (after? "input".toList (trimLeft back)).isSome ∧ ∀ c ∈ back, c ∉ marks := by
  have hsplit (text : Chars) : ∃ front, text = front ++ trimLeft text ∧
      ∀ c ∈ front, isBlank c = true :=
    ⟨text.takeWhile isBlank, List.takeWhile_append_dropWhile.symm,
      fun c hc => List.mem_takeWhile_imp hc⟩
  rw [heading?] at hkind
  simp only [Option.bind_eq_bind, Option.bind_eq_some_iff] at hkind
  obtain ⟨equals, hequals, body, hbody, hlast⟩ := hkind
  obtain ⟨front, hfront, hblank⟩ := hsplit before
  refine ⟨front, equals, ?_, hblank, ?_, ?_⟩
  · rw [← List.singleton_append, ← after?_eq_some_iff.1 hequals]
    exact hfront
  · rw [hbody]
    rfl
  · intro c hc
    obtain ⟨space, hspace, hspaceBlank⟩ := hsplit equals
    obtain ⟨rest, hrest, hrestBlank⟩ := hsplit (takeKind body).2
    have hempty : trimLeft (takeKind body).2 = [] := by
      by_cases hnil : (trimLeft (takeKind body).2).isEmpty = true
      · exact List.isEmpty_iff.1 hnil
      · rw [if_neg hnil] at hlast
        exact nomatch hlast
    rw [hspace, after?_eq_some_iff.1 hbody,
      ← kindText_takeKind body, hrest, hempty] at hc
    simp only [List.mem_append, List.not_mem_nil, or_false] at hc
    rcases hc with hc | hc | hc | hc
    · exact not_mem_marks_of_isBlank (hspaceBlank c hc)
    · have hall : ∀ c ∈ "input".toList, c ∉ marks := by decide
      exact hall c hc
    · have hall : ∀ kind ∈ none :: InputKind.all.map some, ∀ c ∈ kindText kind, c ∉ marks := by
        decide
      refine hall _ ?_ c hc
      cases (takeKind body).1 with
      | none => exact List.mem_cons_self
      | some kind => cases kind <;> decide
    · exact not_mem_marks_of_isBlank (hrestBlank c hc)

end Backtest.Input
