import Backtest.Proofs.Script.Content
import Backtest.Proofs.Script.Texts

/-!
# The layout of a script

Whatever a text looks like, each of its content lines gives at most one head or statement, in the
order of the text: the numbers in the tree rise.  All heads of a chain have the indentation of the
first one, and whatever stands under them is deeper.  Lines without content change the numbers and
nothing else (`layout_of_parse`).

The lines that a chain takes are found by their indentation alone.  What is proved of them is proved
for any list of lines, together for blocks and for the rest of a chain.
-/

namespace Backtest.Script

open Text

/-! ## Numbers in a tree -/

mutual

/-- The numbers of the lines of a statement and of what is under it, in the order of the text. -/
def Statement.numbers : Statement → List Nat
  | .assign line _ _ | .destructure line _ _ _ | .signal line _ _ => [line]
  | .chain _ branches otherwise => Branch.numbers branches ++ Statement.blockNumbers otherwise

def Statement.blockNumbers : List Statement → List Nat
  | [] => []
  | first :: rest => first.numbers ++ Statement.blockNumbers rest

def Branch.numbers : List Branch → List Nat
  | [] => []
  | .mk line _ body :: rest => line :: (Statement.blockNumbers body ++ Branch.numbers rest)

end

mutual

/-- A statement with other numbers for its lines. -/
def Statement.renumbered (renumber : Nat → Nat) : Statement → Statement
  | .assign line name expression => .assign (renumber line) name expression
  | .destructure line names triple arguments => .destructure (renumber line) names triple arguments
  | .signal line kind label => .signal (renumber line) kind label
  | .chain line branches otherwise =>
      .chain (renumber line) (Branch.allRenumbered renumber branches)
        (Statement.allRenumbered renumber otherwise)

def Statement.allRenumbered (renumber : Nat → Nat) : List Statement → List Statement
  | [] => []
  | first :: rest => first.renumbered renumber :: Statement.allRenumbered renumber rest

def Branch.allRenumbered (renumber : Nat → Nat) : List Branch → List Branch
  | [] => []
  | .mk line condition body :: rest =>
      .mk (renumber line) condition (Statement.allRenumbered renumber body) ::
        Branch.allRenumbered renumber rest

end

section Nested

-- The line with this number has this indentation.
variable (place : Nat → Nat → Prop)

/-- Lines are indented deeper than others. -/
def Deeper (indent : Nat) (numbers : List Nat) : Prop :=
  ∀ number ∈ numbers, ∃ deeper, place number deeper ∧ indent < deeper

mutual

/-- A chain starts on the line of its first head.  Its heads have one indentation, and all that is
under them is deeper. -/
def Statement.Nested : Statement → Prop
  | .assign _ _ _ | .destructure _ _ _ _ | .signal _ _ _ => True
  | .chain line branches otherwise =>
      (Branch.numbers branches).head? = some line ∧
        ∃ indent, Branch.AllNested indent branches ∧
          Deeper place indent (Statement.blockNumbers otherwise) ∧ Statement.AllNested otherwise

def Statement.AllNested : List Statement → Prop
  | [] => True
  | first :: rest => first.Nested ∧ Statement.AllNested rest

def Branch.AllNested (indent : Nat) : List Branch → Prop
  | [] => True
  | .mk line _ body :: rest =>
      place line indent ∧ Deeper place indent (Statement.blockNumbers body) ∧
        Statement.AllNested body ∧ Branch.AllNested indent rest

end

end Nested

/-! ## One statement after the other -/

theorem Statement.blockNumbers_append (first second : List Statement) :
    Statement.blockNumbers (first ++ second) =
      Statement.blockNumbers first ++ Statement.blockNumbers second := by
  induction first with
  | nil => rfl
  | cons statement rest ih =>
      rw [List.cons_append, Statement.blockNumbers, ih, Statement.blockNumbers, List.append_assoc]

theorem Branch.numbers_append (first second : List Branch) :
    Branch.numbers (first ++ second) = Branch.numbers first ++ Branch.numbers second := by
  induction first with
  | nil => rfl
  | cons branch rest ih =>
      obtain ⟨line, condition, body⟩ := branch
      rw [List.cons_append, Branch.numbers, ih, Branch.numbers, List.cons_append,
        List.append_assoc]

theorem Statement.allNested_append (place : Nat → Nat → Prop) {first second : List Statement}
    (hfirst : Statement.AllNested place first) (hsecond : Statement.AllNested place second) :
    Statement.AllNested place (first ++ second) := by
  induction first with
  | nil => exact hsecond
  | cons statement rest ih => exact ⟨hfirst.1, ih hfirst.2⟩

theorem Statement.allRenumbered_append (renumber : Nat → Nat) (first second : List Statement) :
    Statement.allRenumbered renumber (first ++ second) =
      Statement.allRenumbered renumber first ++ Statement.allRenumbered renumber second := by
  induction first with
  | nil => rfl
  | cons statement rest ih =>
      rw [List.cons_append, Statement.allRenumbered, ih, Statement.allRenumbered, List.cons_append]

/-! ## Statements of one line -/

/-- A statement of one line, which has the given number. -/
def Statement.IsSimple (number : Nat) : Statement → Prop
  | .assign line _ _ | .destructure line _ _ _ | .signal line _ _ => line = number
  | .chain _ _ _ => False

section Simple

variable {line : Line} {number : Nat} {content : Statement}

theorem Statement.IsSimple.numbers_eq (hsimple : content.IsSimple number) :
    content.numbers = [number] := by
  cases content with
  | chain => exact hsimple.elim
  | _ => exact congrArg (fun line => [line]) hsimple

theorem Statement.IsSimple.nested (hsimple : content.IsSimple number) (place : Nat → Nat → Prop) :
    content.Nested place := by
  cases content with
  | chain => exact hsimple.elim
  | _ => trivial

theorem isSimple_of_simple? (hread : simple? line = some content) :
    content.IsSimple line.number := by
  rw [simple?] at hread
  split at hread
  · obtain ⟨_, _, rfl⟩ := Option.map_eq_some_iff.1 hread
    rfl
  · split at hread
    · injection hread with hread
      rw [← hread]
      rfl
    · split at hread
      · cases hread
      · split at hread
        · obtain ⟨_, _, rfl⟩ := Option.map_eq_some_iff.1 hread
          rfl
        · split at hread
          · cases hread
          · injection hread with hread
            rw [← hread]
            rfl

theorem simple?_renumbered (renumber : Nat → Nat) (line : Line) :
    simple? (line.renumbered renumber) = (simple? line).map (Statement.renumbered renumber) := by
  rw [simple?, simple?, show (line.renumbered renumber).text = line.text from rfl]
  split
  · cases signal? line.text <;> rfl
  · split
    · rfl
    · split
      · rfl
      · split
        · next arguments _ => cases arguments.head? <;> rfl
        · split <;> rfl

end Simple

/-! ## Numbers rise -/

/-- What a head owns and what comes after that are all the lines. -/
theorem map_number_owned_append (indent : Nat) (lines : List Line) :
    (Block.owned indent lines).map (·.number) ++ (Block.after indent lines).map (·.number) =
      lines.map (·.number) := by
  rw [← List.map_append]
  exact congrArg _ List.takeWhile_append_dropWhile

mutual

/-- The numbers of a block are among those of its lines, in the same order. -/
theorem numbers_ofLines_sublist : ∀ lines : List Line,
    (Statement.blockNumbers (Block.ofLines lines)).Sublist (lines.map (·.number))
  | [] => by
      rw [Block.ofLines]
      exact List.Sublist.refl _
  | line :: rest => by
      rw [Block.ofLines, List.map_cons]
      split
      · have hbody := numbers_ofLines_sublist (Block.owned line.indent rest)
        have hchain := numbers_chainOfLines_sublist line.indent (Block.after line.indent rest)
        have hlater := numbers_ofLines_sublist
          (Block.afterChain line.indent (Block.after line.indent rest))
        rw [Statement.blockNumbers, Statement.numbers, Branch.numbers, List.cons_append,
          List.cons_append, List.append_assoc, List.append_assoc,
          ← map_number_owned_append line.indent rest, ← List.append_assoc (Branch.numbers _)]
        have hrest := ((List.Sublist.refl _).append hlater).trans hchain
        exact (hbody.append hrest).cons_cons line.number
      · have hlater := numbers_ofLines_sublist rest
        rw [Statement.blockNumbers_append]
        cases hread : simple? line with
        | none => exact hlater.cons line.number
        | some content =>
            rw [Option.toList_some, Statement.blockNumbers, Statement.blockNumbers, List.append_nil,
              (isSimple_of_simple? hread).numbers_eq]
            exact hlater.cons_cons line.number
termination_by lines => lines.length
decreasing_by
  · exact Nat.lt_succ_of_le (Block.length_owned_le _ _)
  · exact Nat.lt_succ_of_le (Block.length_after_le _ _)
  · exact Nat.lt_succ_of_le ((Block.length_afterChain_le _ _).trans (Block.length_after_le _ _))
  · exact Nat.lt_succ_self _

theorem numbers_chainOfLines_sublist (indent : Nat) : ∀ lines : List Line,
    ((Branch.numbers (Block.chainOfLines indent lines).1 ++
        Statement.blockNumbers (Block.chainOfLines indent lines).2) ++
      (Block.afterChain indent lines).map (·.number)).Sublist (lines.map (·.number))
  | [] => by
      rw [Block.chainOfLines, Block.afterChain]
      exact List.Sublist.refl _
  | line :: rest => by
      have hbody := numbers_ofLines_sublist (Block.owned indent rest)
      rw [Block.chainOfLines, Block.afterChain, List.map_cons,
        ← map_number_owned_append indent rest]
      split
      · next condition hcondition =>
          have hothers := numbers_chainOfLines_sublist indent (Block.after indent rest)
          rw [hcondition, Option.isSome_some, if_pos rfl, Branch.numbers, List.cons_append,
            List.cons_append, List.append_assoc, List.append_assoc,
            ← List.append_assoc (Branch.numbers _)]
          exact (hbody.append hothers).cons_cons line.number
      · next hcondition =>
          rw [hcondition, Option.isSome_none, if_neg Bool.false_ne_true]
          split
          · exact (hbody.append (List.Sublist.refl _)).cons line.number
          · rw [map_number_owned_append]
            exact List.Sublist.refl _
termination_by lines => lines.length
decreasing_by
  · exact Nat.lt_succ_of_le (Block.length_owned_le _ _)
  · exact Nat.lt_succ_of_le (Block.length_after_le _ _)

end

/-! ## Blocks are deeper than their heads -/

section Places

variable {place : Nat → Nat → Prop}

/-- Lines have the places that their numbers stand for. -/
def Placed (place : Nat → Nat → Prop) (lines : List Line) : Prop :=
  ∀ line ∈ lines, place line.number line.indent

theorem Placed.sublist {lines others : List Line} (hlines : Placed place lines)
    (hothers : others.Sublist lines) : Placed place others :=
  fun line hline => hlines line (hothers.subset hline)

theorem Placed.deeper_owned {lines : List Line} (hlines : Placed place lines) (indent : Nat) :
    Deeper place indent (Statement.blockNumbers (Block.ofLines (Block.owned indent lines))) := by
  intro number hnumber
  obtain ⟨line, hline, rfl⟩ :=
    List.mem_map.1 ((numbers_ofLines_sublist (Block.owned indent lines)).subset hnumber)
  have hplace := hlines.sublist (sublist_owned indent lines) line hline
  have hdeep := List.all_eq_true.1 List.all_takeWhile line hline
  exact ⟨line.indent, hplace, of_decide_eq_true hdeep⟩

mutual

theorem nested_ofLines : ∀ lines : List Line, Placed place lines →
    Statement.AllNested place (Block.ofLines lines)
  | [], _ => by
      rw [Block.ofLines]
      trivial
  | line :: rest, hlines => by
      have hrest := hlines.sublist (List.sublist_cons_self line rest)
      rw [Block.ofLines]
      split
      · have hafter := hrest.sublist (sublist_after line.indent rest)
        have hbody := nested_ofLines _ (hrest.sublist (sublist_owned line.indent rest))
        obtain ⟨hothers, hdeeper, hlast⟩ := nested_chainOfLines line.indent _ hafter
        have hlater := nested_ofLines _ (hafter.sublist (sublist_afterChain line.indent _))
        exact ⟨⟨rfl, line.indent, ⟨hlines line List.mem_cons_self, hrest.deeper_owned line.indent,
          hbody, hothers⟩, hdeeper, hlast⟩, hlater⟩
      · refine Statement.allNested_append place ?_ (nested_ofLines rest hrest)
        cases hread : simple? line with
        | none => trivial
        | some content => exact ⟨(isSimple_of_simple? hread).nested place, trivial⟩
termination_by lines => lines.length
decreasing_by
  · exact Nat.lt_succ_of_le (Block.length_owned_le _ _)
  · exact Nat.lt_succ_of_le (Block.length_after_le _ _)
  · exact Nat.lt_succ_of_le ((Block.length_afterChain_le _ _).trans (Block.length_after_le _ _))
  · exact Nat.lt_succ_self _

theorem nested_chainOfLines (indent : Nat) : ∀ lines : List Line, Placed place lines →
    Branch.AllNested place indent (Block.chainOfLines indent lines).1 ∧
      Deeper place indent (Statement.blockNumbers (Block.chainOfLines indent lines).2) ∧
      Statement.AllNested place (Block.chainOfLines indent lines).2
  | [], _ => by
      rw [Block.chainOfLines]
      exact ⟨trivial, List.forall_mem_nil _, trivial⟩
  | line :: rest, hlines => by
      have hrest := hlines.sublist (List.sublist_cons_self line rest)
      have hbody := nested_ofLines _ (hrest.sublist (sublist_owned indent rest))
      rw [Block.chainOfLines]
      split
      · next condition hcondition =>
          have hindent : line.indent = indent := by
            by_contra hne
            rw [Block.continuation?, if_neg hne] at hcondition
            cases hcondition
          obtain ⟨hothers, hlast⟩ :=
            nested_chainOfLines indent _ (hrest.sublist (sublist_after indent rest))
          exact ⟨⟨hindent ▸ hlines line List.mem_cons_self, hrest.deeper_owned indent, hbody,
            hothers⟩, hlast⟩
      · split
        · exact ⟨trivial, hrest.deeper_owned indent, hbody⟩
        · exact ⟨trivial, List.forall_mem_nil _, trivial⟩
termination_by lines => lines.length
decreasing_by
  · exact Nat.lt_succ_of_le (Block.length_owned_le _ _)
  · exact Nat.lt_succ_of_le (Block.length_after_le _ _)

end

end Places

/-! ## Other numbers -/

section Renumbered

variable (renumber : Nat → Nat)

@[simp] theorem continuation?_renumbered (indent : Nat) (line : Line) :
    Block.continuation? indent (line.renumbered renumber) = Block.continuation? indent line := rfl

@[simp] theorem isLastPart_renumbered (indent : Nat) (line : Line) :
    Block.isLastPart indent (line.renumbered renumber) = Block.isLastPart indent line := rfl

theorem owned_renumbered (indent : Nat) (lines : List Line) :
    Block.owned indent (lines.map (Line.renumbered renumber)) =
      (Block.owned indent lines).map (Line.renumbered renumber) := List.takeWhile_map

theorem after_renumbered (indent : Nat) (lines : List Line) :
    Block.after indent (lines.map (Line.renumbered renumber)) =
      (Block.after indent lines).map (Line.renumbered renumber) := List.dropWhile_map

theorem afterChain_renumbered (indent : Nat) (lines : List Line) :
    Block.afterChain indent (lines.map (Line.renumbered renumber)) =
      (Block.afterChain indent lines).map (Line.renumbered renumber) := by
  fun_induction Block.afterChain indent lines with
  | case1 => rw [List.map_nil, Block.afterChain]
  | case2 line rest hcontinues ih =>
      rw [List.map_cons, Block.afterChain, continuation?_renumbered, if_pos hcontinues,
        after_renumbered, ih]
  | case3 line rest hends hlast =>
      rw [List.map_cons, Block.afterChain, continuation?_renumbered, if_neg hends,
        isLastPart_renumbered, if_pos hlast, after_renumbered]
  | case4 line rest hends hlast =>
      rw [List.map_cons, Block.afterChain, continuation?_renumbered, if_neg hends,
        isLastPart_renumbered, if_neg hlast]

mutual

/-- Which lines make up a block does not depend on their numbers. -/
theorem ofLines_renumbered : ∀ lines : List Line,
    Block.ofLines (lines.map (Line.renumbered renumber)) =
      Statement.allRenumbered renumber (Block.ofLines lines)
  | [] => by
      rw [List.map_nil, Block.ofLines]
      rfl
  | line :: rest => by
      rw [List.map_cons, Block.ofLines, Block.ofLines,
        show (line.renumbered renumber).text = line.text from rfl,
        show (line.renumbered renumber).indent = line.indent from rfl]
      split
      · rw [owned_renumbered, after_renumbered, afterChain_renumbered, ofLines_renumbered,
          ofLines_renumbered, chainOfLines_renumbered]
        rfl
      · rw [simple?_renumbered, ofLines_renumbered rest, Statement.allRenumbered_append]
        cases simple? line <;> rfl
termination_by lines => lines.length
decreasing_by
  · exact Nat.lt_succ_of_le (Block.length_owned_le _ _)
  · exact Nat.lt_succ_of_le ((Block.length_afterChain_le _ _).trans (Block.length_after_le _ _))
  · exact Nat.lt_succ_of_le (Block.length_after_le _ _)
  · exact Nat.lt_succ_self _

theorem chainOfLines_renumbered (indent : Nat) : ∀ lines : List Line,
    Block.chainOfLines indent (lines.map (Line.renumbered renumber)) =
      (Branch.allRenumbered renumber (Block.chainOfLines indent lines).1,
        Statement.allRenumbered renumber (Block.chainOfLines indent lines).2)
  | [] => by
      rw [List.map_nil, Block.chainOfLines]
      rfl
  | line :: rest => by
      rw [List.map_cons, Block.chainOfLines, Block.chainOfLines, continuation?_renumbered,
        isLastPart_renumbered]
      split
      · rw [owned_renumbered, after_renumbered, ofLines_renumbered, chainOfLines_renumbered]
        rfl
      · split
        · rw [owned_renumbered, ofLines_renumbered]
          rfl
        · rfl
termination_by lines => lines.length
decreasing_by
  · exact Nat.lt_succ_of_le (Block.length_owned_le _ _)
  · exact Nat.lt_succ_of_le (Block.length_after_le _ _)
  · exact Nat.lt_succ_of_le (Block.length_owned_le _ _)

end

end Renumbered

/-! ## Scripts -/

/-- The layout of a text, in the tree that it is read as. -/
structure LaidOut (code : Chars) : Prop where
  rising : (Statement.blockNumbers (parse code)).Pairwise (· < ·)
  content : ∀ number ∈ Statement.blockNumbers (parse code), ∃ indent, StandsAt code number indent
  nested : Statement.AllNested (StandsAt code) (parse code)
  padded : ∀ padding, Padded (lines code) (lines padding) → ∃ renumber : Nat → Nat,
    StrictMono renumber ∧
      (∀ number raw, HasLine code number raw → HasLine padding (renumber number) raw) ∧
      parse padding = Statement.allRenumbered renumber (parse code)

theorem numbers_parse_sublist (code : Chars) :
    (Statement.blockNumbers (parse code)).Sublist ((contentLines code).map (·.number)) :=
  numbers_ofLines_sublist (contentLines code)

/-- Any text is laid out by its indentations, and lines without content make no difference. -/
theorem layout_of_parse (code : Chars) : LaidOut code := by
  refine ⟨(pairwise_contentLines code).sublist (numbers_parse_sublist code), ?_, ?_, ?_⟩
  · intro number hnumber
    obtain ⟨line, hline, rfl⟩ := List.mem_map.1 ((numbers_parse_sublist code).subset hnumber)
    exact ⟨line.indent, standsAt_of_mem_contentLines hline⟩
  · exact nested_ofLines _ fun line hline => standsAt_of_mem_contentLines hline
  · intro padding hpadded
    obtain ⟨renumber, hmoves, _⟩ := hpadded.exists_moves (Nat.le_refl 1)
    refine ⟨renumber, hmoves.strictMono, fun number raw => hmoves.found raw number, ?_⟩
    rw [parse, parse, contentLines_eq, hmoves.content, ofLines_renumbered, contentLines_eq]

/-- The first line of a script whose other lines are not aligned. -/
def unevenHead : Chars := "if close > open\n".toList

/-- An assignment, an `else` that is no part of the chain, one that continues it, and a block behind
tabs. -/
def unevenRest : Chars :=
  ("    x = 1\n  else\n      strategy.close_all()\nelse if close < open\n" ++
    "\tif volume > 0\n\t\tstrategy.entry(\"L\", strategy.long)").toList

/-- A comment between the first line and the block under it, in a column of its own. -/
theorem layout_of_parse_uneven :
    Statement.blockNumbers (parse (unevenHead ++ unevenRest)) = [1, 2, 4, 5, 6, 7] ∧
    Padded (lines (unevenHead ++ unevenRest))
      (lines (unevenHead ++ (" // comment".toList ++ '\n' :: unevenRest))) ∧
    Statement.blockNumbers (parse (unevenHead ++ (" // comment".toList ++ '\n' :: unevenRest))) =
      [1, 3, 5, 6, 7, 8] ∧
    ∃ renumber : Nat → Nat, StrictMono renumber ∧
      parse (unevenHead ++ (" // comment".toList ++ '\n' :: unevenRest)) =
        Statement.allRenumbered renumber (parse (unevenHead ++ unevenRest)) := by
  have hpadded : Padded (lines (unevenHead ++ unevenRest))
      (lines (unevenHead ++ (" // comment".toList ++ '\n' :: unevenRest))) :=
    padded_insert (by decide) (by decide) (by decide) (by decide)
  obtain ⟨renumber, hmono, _, hparse⟩ :=
    (layout_of_parse (unevenHead ++ unevenRest)).padded _ hpadded
  exact ⟨by decide +kernel, hpadded, by decide +kernel, renumber, hmono, hparse⟩

end Backtest.Script
