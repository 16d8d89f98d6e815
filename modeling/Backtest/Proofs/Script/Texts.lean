import Backtest.Proofs.Expr.Part
import Backtest.Script.Block

/-!
# Texts of a script

The statements of a script hold pieces of its lines: whatever text is evaluated when the script runs
stands in the text of one of its lines (`all_parse`).
-/

namespace Backtest.Script

open Text Backtest.Expr

/-! ## Properties of all texts -/

section All

variable (condition : Nat → Chars → Prop) (operand : Chars → Prop)

mutual

/-- All conditions in a statement, with the numbers of their lines, have one property, and all other
texts in it have another one. -/
def Statement.All : Statement → Prop
  | .assign _ _ expression => operand expression
  | .destructure _ _ _ arguments => ∀ text ∈ arguments, operand text
  | .signal _ _ _ => True
  | .chain _ branches otherwise => Branch.AllOf branches ∧ Statement.AllOf otherwise

def Statement.AllOf : List Statement → Prop
  | [] => True
  | first :: rest => first.All ∧ Statement.AllOf rest

def Branch.AllOf : List Branch → Prop
  | [] => True
  | .mk line text body :: rest => condition line text ∧ Statement.AllOf body ∧ Branch.AllOf rest

end

theorem Statement.allOf_append {first second : List Statement} :
    Statement.AllOf condition operand (first ++ second) ↔
      Statement.AllOf condition operand first ∧ Statement.AllOf condition operand second := by
  induction first with
  | nil => simp [Statement.AllOf]
  | cons statement rest ih =>
      rw [List.cons_append, Statement.AllOf, Statement.AllOf, ih, and_assoc]

end All

/-! ## Texts of a line -/

section Lines

variable {text rest : Chars}

theorem infix_of_after? {start : Chars} (hrest : after? start text = some rest) :
    rest <:+: text := by
  rw [after?_eq_some_iff.1 hrest]
  exact (List.suffix_append _ _).isInfix

theorem infix_of_afterWord? {word : String} (hrest : afterWord? word text = some rest) :
    rest <:+: text := by
  rw [afterWord?] at hrest
  split at hrest
  · next other hother =>
      split at hrest
      · injection hrest with hrest
        exact hrest ▸ infix_of_after? hother
      · cases hrest
  · cases hrest

theorem infix_of_afterSpaced? {word : String} (hrest : afterSpaced? word text = some rest) :
    rest <:+: text := by
  rw [afterSpaced?] at hrest
  split at hrest
  · next c other hother =>
      split at hrest
      · injection hrest with hrest
        rw [← hrest]
        have hsuffix := (trimLeft_isSuffix other).trans (List.suffix_cons c other)
        exact hsuffix.isInfix.trans (infix_of_after? hother)
      · cases hrest
  · cases hrest

theorem infix_of_afterOpening? {word : String} (hrest : afterOpening? word text = some rest) :
    rest <:+: text := by
  rw [afterOpening?] at hrest
  split at hrest
  · next other hother =>
      obtain ⟨found, hfound, htrim⟩ := Option.map_eq_some_iff.1 hother
      injection hrest with hrest
      rw [← hrest]
      have hsuffix := (List.suffix_cons '(' other).trans (htrim ▸ trimLeft_isSuffix found)
      exact hsuffix.isInfix.trans (infix_of_after? hfound)
  · cases hrest

theorem infix_of_ifCondition? (hrest : ifCondition? text = some rest) : rest <:+: text := by
  obtain ⟨found, hfound, rfl⟩ := Option.map_eq_some_iff.1 hrest
  exact (trimLeft_isSuffix found).isInfix.trans (infix_of_afterWord? hfound)

theorem infix_of_elseIfCondition? (hrest : elseIfCondition? text = some rest) :
    rest <:+: text := by
  obtain ⟨found, hfound, hrest⟩ := Option.bind_eq_some_iff.1 hrest
  exact (infix_of_ifCondition? hrest).trans (infix_of_afterSpaced? hfound)

theorem infix_of_continuation? {indent : Nat} {line : Line}
    (hrest : Block.continuation? indent line = some rest) : rest <:+: line.text := by
  rw [Block.continuation?] at hrest
  split at hrest
  · exact infix_of_elseIfCondition? hrest
  · cases hrest

theorem cleanCondition_isInfix (text : Chars) : cleanCondition text <:+: text := by
  -- Whatever is dropped is dropped from the end.
  have hdrop {ending : String} {text rest : Chars}
      (hrest : (after? ending.toList.reverse (trimRight text).reverse).map
        (fun rest => trimRight rest.reverse) = some rest) : rest <:+: text := by
    obtain ⟨found, hfound, rfl⟩ := Option.map_eq_some_iff.1 hrest
    have hends := List.reverse_infix.2 (infix_of_after? hfound)
    rw [List.reverse_reverse] at hends
    exact (trimRight_isPrefix _).isInfix.trans (hends.trans (trimRight_isPrefix text).isInfix)
  have hgetD {found : Option Chars} {whole : Chars}
      (hfound : ∀ rest, found = some rest → rest <:+: whole) : found.getD whole <:+: whole := by
    cases found with
    | none => exact List.infix_rfl
    | some rest => exact hfound rest rfl
  rw [cleanCondition]
  refine (trim_isInfix _).trans ((hgetD ?_).trans (hgetD fun rest hrest => hdrop hrest))
  intro rest hrest
  rcases Option.or_eq_some_iff.1 (Option.or_eq_orElse ▸ hrest) with hcolon | ⟨_, hbrace⟩
  · exact hdrop hcolon
  · exact hdrop hbrace

theorem infix_of_callArguments? {name : String} {arguments : List Chars}
    (harguments : callArguments? name text = some arguments) {argument : Chars}
    (hargument : argument ∈ arguments) : argument <:+: text := by
  rw [callArguments?] at harguments
  split at harguments
  · next inner hinner =>
      split at harguments
      · injection harguments with harguments
        rw [← harguments] at hargument
        exact (infix_of_mem_arguments hargument).trans
          ((List.dropLast_prefix inner).isInfix.trans (infix_of_afterOpening? hinner))
      · cases harguments
  · cases harguments

theorem infix_of_afterAssign? (hrest : afterAssign? text = some rest) : rest <:+: text := by
  rw [afterAssign?.eq_def] at hrest
  split at hrest
  · injection hrest with hrest
    exact hrest ▸ (List.suffix_append [':', '='] _).isInfix
  · split at hrest
    · cases hrest
    · injection hrest with hrest
      exact hrest ▸ (List.suffix_cons '=' _).isInfix
  · cases hrest

theorem infix_of_bareAssignment? {name : String}
    (hassigned : bareAssignment? text = some (name, rest)) : rest <:+: text := by
  rw [bareAssignment?, List.span_eq_takeWhile_dropWhile] at hassigned
  obtain ⟨found, hfound, hrest⟩ := Option.bind_eq_some_iff.1 hassigned
  dsimp only at hrest
  split at hrest
  · cases hrest
  · injection hrest with hrest
    obtain ⟨_, rfl⟩ := Prod.mk.inj hrest
    have hsuffix := (trimLeft_isSuffix _).trans (List.dropWhile_suffix isWord (l := text))
    exact (trim_isInfix found).trans ((infix_of_afterAssign? hfound).trans hsuffix.isInfix)

theorem infix_of_assignment? {name : String}
    (hassigned : assignment? text = some (name, rest)) : rest <:+: text := by
  have hstarts {words : List String} {whole start : Chars}
      (hstart : start ∈ (words.filterMap fun word => afterSpaced? word whole) ++ [whole]) :
      start <:+: whole := by
    rcases List.mem_append.1 hstart with hmem | hmem
    · obtain ⟨word, _, hword⟩ := List.mem_filterMap.1 hmem
      exact infix_of_afterSpaced? hword
    · exact List.mem_singleton.1 hmem ▸ List.infix_rfl
  obtain ⟨start, hstart, hbare⟩ := List.exists_of_findSome?_eq_some hassigned
  obtain ⟨scope, hscope, hstart⟩ := List.mem_flatMap.1 hstart
  exact (infix_of_bareAssignment? hbare).trans ((hstarts hstart).trans (hstarts hscope))

theorem infix_of_destructuring? {names : List String} {triple : Triple} {arguments : List Chars}
    (hread : destructuring? text = some (names, triple, arguments)) {argument : Chars}
    (hargument : argument ∈ arguments) : argument <:+: text := by
  obtain ⟨inner, hinner, hread⟩ := Option.bind_eq_some_iff.1 hread
  obtain ⟨⟨found, rest⟩, hcut, hread⟩ := Option.bind_eq_some_iff.1 hread
  dsimp only at hread
  split at hread
  · obtain ⟨right, hright, hread⟩ := Option.bind_eq_some_iff.1 hread
    obtain ⟨⟨other, texts⟩, hcall, hread⟩ := Option.bind_eq_some_iff.1 hread
    injection hread with hread
    obtain ⟨_, hread⟩ := Prod.mk.inj hread
    obtain ⟨_, rfl⟩ := Prod.mk.inj hread
    obtain ⟨form, _, hform⟩ := List.exists_of_findSome?_eq_some hcall
    obtain ⟨_, harguments, hpair⟩ := Option.map_eq_some_iff.1 hform
    obtain ⟨_, rfl⟩ := Prod.mk.inj hpair
    obtain ⟨target, htarget, rfl⟩ := Option.map_eq_some_iff.1 hright
    have hrest : rest <:+: inner := by
      rw [(cutAt_eq_some_iff.1 hcut).1]
      exact ((List.suffix_cons ']' rest).trans (List.suffix_append found _)).isInfix
    have hstands : target <:+: trimLeft rest := by
      rcases Option.or_eq_some_iff.1 (Option.or_eq_orElse ▸ htarget) with hsign | ⟨_, hsign⟩
      · exact infix_of_after? hsign
      · exact infix_of_after? hsign
    exact (infix_of_callArguments? harguments hargument).trans
      ((trimLeft_isSuffix target).isInfix.trans (hstands.trans
        ((trimLeft_isSuffix rest).isInfix.trans (hrest.trans (infix_of_after? hinner)))))
  · cases hread

end Lines

/-! ## Texts of a script -/

section Scripts

variable {P : Chars → Prop}

/-- All parts of the texts of some lines have a property. -/
def Covered (P : Chars → Prop) (lines : List Line) : Prop :=
  ∀ line ∈ lines, ∀ text, text <:+: line.text → P text

theorem Covered.sublist {lines others : List Line} (hlines : Covered P lines)
    (hothers : others.Sublist lines) : Covered P others :=
  fun line hline => hlines line (hothers.subset hline)

theorem all_of_simple? {line : Line} (hline : ∀ text, text <:+: line.text → P text)
    {content : Statement} (hread : simple? line = some content) :
    content.All (fun _ => P) P := by
  rw [simple?] at hread
  split at hread
  · obtain ⟨_, _, rfl⟩ := Option.map_eq_some_iff.1 hread
    trivial
  · split at hread
    · next hcall =>
        injection hread with hread
        rw [← hread]
        exact fun argument hargument => hline argument (infix_of_destructuring? hcall hargument)
    · split at hread
      · cases hread
      · next name right hassigned =>
          have hright := infix_of_assignment? hassigned
          split at hread
          · next arguments harguments =>
              obtain ⟨expression, hexpression, rfl⟩ := Option.map_eq_some_iff.1 hread
              have hmem := List.mem_of_mem_head? hexpression
              exact hline expression ((infix_of_callArguments? harguments hmem).trans hright)
          · split at hread
            · cases hread
            · injection hread with hread
              rw [← hread]
              exact hline right hright

theorem sublist_owned (indent : Nat) (lines : List Line) :
    (Block.owned indent lines).Sublist lines := List.takeWhile_sublist _

theorem sublist_after (indent : Nat) (lines : List Line) :
    (Block.after indent lines).Sublist lines := List.dropWhile_sublist _

theorem sublist_afterChain (indent : Nat) (lines : List Line) :
    (Block.afterChain indent lines).Sublist lines := by
  fun_induction Block.afterChain indent lines with
  | case1 => exact List.Sublist.refl _
  | case2 line rest _ ih => exact (ih.trans (sublist_after indent rest)).cons line
  | case3 line rest _ _ => exact (sublist_after indent rest).cons line
  | case4 line rest => exact List.Sublist.refl _

mutual

theorem allOf_ofLines : ∀ lines : List Line, Covered P lines →
    Statement.AllOf (fun _ => P) P (Block.ofLines lines)
  | [], _ => by
      rw [Block.ofLines]
      trivial
  | line :: rest, hlines => by
      have hrest := hlines.sublist (List.sublist_cons_self line rest)
      rw [Block.ofLines]
      split
      · next condition hcondition =>
          have howned := hrest.sublist (sublist_owned line.indent rest)
          have hafter := hrest.sublist (sublist_after line.indent rest)
          have hstands :=
            (cleanCondition_isInfix condition).trans (infix_of_ifCondition? hcondition)
          have hbody := allOf_ofLines _ howned
          obtain ⟨hothers, hlast⟩ := allOf_chainOfLines line.indent _ hafter
          have hlater := allOf_ofLines _ (hafter.sublist (sublist_afterChain line.indent _))
          exact ⟨⟨⟨hlines line List.mem_cons_self _ hstands, hbody, hothers⟩, hlast⟩, hlater⟩
      · rw [Statement.allOf_append]
        refine ⟨?_, allOf_ofLines rest hrest⟩
        cases hread : simple? line with
        | none => trivial
        | some content => exact ⟨all_of_simple? (hlines line List.mem_cons_self) hread, trivial⟩
termination_by lines => lines.length
decreasing_by
  · exact Nat.lt_succ_of_le (Block.length_owned_le _ _)
  · exact Nat.lt_succ_of_le (Block.length_after_le _ _)
  · exact Nat.lt_succ_of_le ((Block.length_afterChain_le _ _).trans (Block.length_after_le _ _))
  · exact Nat.lt_succ_self _

theorem allOf_chainOfLines (indent : Nat) : ∀ lines : List Line, Covered P lines →
    Branch.AllOf (fun _ => P) P (Block.chainOfLines indent lines).1 ∧
      Statement.AllOf (fun _ => P) P (Block.chainOfLines indent lines).2
  | [], _ => by
      rw [Block.chainOfLines]
      exact ⟨trivial, trivial⟩
  | line :: rest, hlines => by
      have hrest := hlines.sublist (List.sublist_cons_self line rest)
      have hbody := allOf_ofLines _ (hrest.sublist (sublist_owned indent rest))
      rw [Block.chainOfLines]
      split
      · next condition hcondition =>
          have hafter := hrest.sublist (sublist_after indent rest)
          have hstands :=
            (cleanCondition_isInfix condition).trans (infix_of_continuation? hcondition)
          obtain ⟨hothers, hlast⟩ := allOf_chainOfLines indent _ hafter
          exact ⟨⟨hlines line List.mem_cons_self _ hstands, hbody, hothers⟩, hlast⟩
      · split
        · exact ⟨trivial, hbody⟩
        · exact ⟨trivial, trivial⟩
termination_by lines => lines.length
decreasing_by
  · exact Nat.lt_succ_of_le (Block.length_owned_le _ _)
  · exact Nat.lt_succ_of_le (Block.length_after_le _ _)

end

/-- Every text that a script evaluates stands in one of its lines. -/
theorem all_parse (code : Chars) :
    Statement.AllOf (fun _ text => ∃ line ∈ contentLines code, text <:+: line.text)
      (fun text => ∃ line ∈ contentLines code, text <:+: line.text) (parse code) :=
  allOf_ofLines _ fun line hline _ hstands => ⟨line, hline, hstands⟩

end Scripts

end Backtest.Script
