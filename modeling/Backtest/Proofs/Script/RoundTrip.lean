import Backtest.Proofs.Script.Equality
import Backtest.Proofs.Script.PrintedLine

/-!
# Parsing a printed script

Parsing reads a printed script as the statements it was printed from, but for the numbers of their
lines (`parse_print`).

Which lines belong to a branch is decided by comparing indentations alone.  A printed block stands
deeper than the head over it, so the head owns all of the block, and it owns nothing after the block
because that stands no deeper than the head.  A chain ends where a line neither continues it nor is
its last part, which the first line of a statement never does.
-/

namespace Backtest.Script

open Text Backtest.Expr

/-! ## Trees of statements -/

mutual

/-- The texts of a statement are read as what they are, wherever they are printed. -/
def Statement.Printable : Statement → Prop
  | .assign _ name expression => (IsName name ∧ name ≠ "if") ∧ IsExpression expression
  | .destructure _ names _ arguments =>
      (names ≠ [] ∧ names.length ≤ 3 ∧ ∀ name ∈ names, IsName name) ∧
        ∀ text ∈ arguments, IsOperand text
  | .signal _ kind label => FitsLabel kind label
  | .chain _ branches otherwise =>
      branches ≠ [] ∧ Branch.AllPrintable branches ∧ Statement.AllPrintable otherwise

def Statement.AllPrintable : List Statement → Prop
  | [] => True
  | first :: rest => first.Printable ∧ Statement.AllPrintable rest

def Branch.AllPrintable : List Branch → Prop
  | [] => True
  | .mk _ condition body :: rest =>
      IsCondition condition ∧ Statement.AllPrintable body ∧ Branch.AllPrintable rest

end

mutual

/-- A statement without the numbers of its lines. -/
def Statement.unnumbered : Statement → Statement
  | .assign _ name expression => .assign 0 name expression
  | .destructure _ names triple arguments => .destructure 0 names triple arguments
  | .signal _ kind label => .signal 0 kind label
  | .chain _ branches otherwise =>
      .chain 0 (Branch.allUnnumbered branches) (Statement.allUnnumbered otherwise)

def Statement.allUnnumbered : List Statement → List Statement
  | [] => []
  | first :: rest => first.unnumbered :: Statement.allUnnumbered rest

def Branch.allUnnumbered : List Branch → List Branch
  | [] => []
  | .mk _ condition body :: rest =>
      .mk 0 condition (Statement.allUnnumbered body) :: Branch.allUnnumbered rest

end

/-! ## Rows of a tree -/

/-- The rows of what happens if no branch of a chain is taken. -/
def lastRows (depth : Nat) (otherwise : List Statement) : List Row :=
  if otherwise.isEmpty then [] else ⟨depth, elseText⟩ :: Statement.blockRows (depth + 1) otherwise

mutual

theorem Statement.isLineText_rows (statement : Statement) (hprintable : statement.Printable)
    (depth : Nat) : ∀ row ∈ statement.rows depth, IsLineText row.text := by
  cases statement with
  | assign line name expression =>
      exact List.forall_mem_singleton.2 (isLineText_assign hprintable.1.1 hprintable.2.toIsPhrase)
  | destructure line names triple arguments =>
      exact List.forall_mem_singleton.2 (isLineText_destructure hprintable.1.2.2 hprintable.2)
  | signal line kind label =>
      exact List.forall_mem_singleton.2 (isLineText_signal hprintable.1)
  | chain line branches otherwise =>
      obtain ⟨_, hbranches, hotherwise⟩ := hprintable
      rw [Statement.rows, List.forall_mem_append]
      refine ⟨Branch.isLineText_rows branches hbranches depth isOpening_if, ?_⟩
      split
      · exact nofun
      · exact List.forall_mem_cons.2
          ⟨isLineText_else, Statement.isLineText_blockRows otherwise hotherwise (depth + 1)⟩

theorem Statement.isLineText_blockRows (statements : List Statement)
    (hprintable : Statement.AllPrintable statements) (depth : Nat) :
    ∀ row ∈ Statement.blockRows depth statements, IsLineText row.text := by
  cases statements with
  | nil => exact nofun
  | cons first rest =>
      rw [Statement.blockRows, List.forall_mem_append]
      exact ⟨first.isLineText_rows hprintable.1 depth,
        Statement.isLineText_blockRows rest hprintable.2 depth⟩

theorem Branch.isLineText_rows (branches : List Branch) (hprintable : Branch.AllPrintable branches)
    (depth : Nat) {opening : Chars} (hopening : IsOpening opening) :
    ∀ row ∈ Branch.rows depth opening branches, IsLineText row.text := by
  match branches, hprintable with
  | [], _ => exact nofun
  | .mk _ condition body :: rest, ⟨hcondition, hbody, hrest⟩ =>
      rw [Branch.rows, List.forall_mem_cons, List.forall_mem_append]
      exact ⟨hopening.isLineText_phrase hcondition.toIsPhrase,
        Statement.isLineText_blockRows body hbody (depth + 1),
        Branch.isLineText_rows rest hrest depth isOpening_elseIf⟩

end

mutual

theorem Statement.le_depth_rows (statement : Statement) (depth : Nat) :
    ∀ row ∈ statement.rows depth, depth ≤ row.depth := by
  cases statement with
  | assign line name expression => exact List.forall_mem_singleton.2 (Nat.le_refl _)
  | destructure line names triple arguments => exact List.forall_mem_singleton.2 (Nat.le_refl _)
  | signal line kind label => exact List.forall_mem_singleton.2 (Nat.le_refl _)
  | chain line branches otherwise =>
      rw [Statement.rows, List.forall_mem_append]
      refine ⟨Branch.le_depth_rows branches depth ifText, ?_⟩
      split
      · exact nofun
      · rw [List.forall_mem_cons]
        exact ⟨Nat.le_refl _, fun row hrow => Nat.le_of_succ_le
          (Statement.le_depth_blockRows otherwise (depth + 1) row hrow)⟩

/-- All rows of a block are at least as deep as the block. -/
theorem Statement.le_depth_blockRows (statements : List Statement) (depth : Nat) :
    ∀ row ∈ Statement.blockRows depth statements, depth ≤ row.depth := by
  cases statements with
  | nil => exact nofun
  | cons first rest =>
      rw [Statement.blockRows, List.forall_mem_append]
      exact ⟨first.le_depth_rows depth, Statement.le_depth_blockRows rest depth⟩

theorem Branch.le_depth_rows (branches : List Branch) (depth : Nat) (opening : Chars) :
    ∀ row ∈ Branch.rows depth opening branches, depth ≤ row.depth := by
  match branches with
  | [] => exact nofun
  | .mk _ condition body :: rest =>
      rw [Branch.rows, List.forall_mem_cons, List.forall_mem_append]
      exact ⟨Nat.le_refl _, fun row hrow => Nat.le_of_succ_le
        (Statement.le_depth_blockRows body (depth + 1) row hrow),
        Branch.le_depth_rows rest depth elseIfText⟩

end

/-- The first row of a statement has the depth of the statement, and it does not go on with a chain
before it. -/
theorem Statement.rows_eq_cons {statement : Statement} (hprintable : statement.Printable)
    (depth : Nat) : ∃ text rest, statement.rows depth = ⟨depth, text⟩ :: rest ∧ IsStart text := by
  match statement, hprintable with
  | .assign _ name expression, ⟨⟨hname, _⟩, _⟩ =>
      exact ⟨_, _, rfl, isStart_assign hname expression⟩
  | .destructure _ names triple arguments, _ =>
      exact ⟨_, _, rfl, isStart_destructure names triple arguments⟩
  | .signal _ kind label, _ => exact ⟨_, _, rfl, isStart_signal kind label⟩
  | .chain _ (.mk _ condition body :: rest) otherwise, _ =>
      exact ⟨_, _, rfl, isStart_if condition⟩
  | .chain _ [] otherwise, ⟨hne, _⟩ => exact absurd rfl hne

theorem Branch.depth_head?_rows {branches : List Branch} {depth : Nat} {opening : Chars} :
    ∀ row, (Branch.rows depth opening branches).head? = some row → row.depth = depth := by
  intro row hrow
  match branches with
  | [] => exact nomatch hrow
  | .mk _ condition body :: rest =>
      injection hrow with hrow
      rw [← hrow]

theorem depth_head?_lastRows {otherwise : List Statement} {depth : Nat} :
    ∀ row, (lastRows depth otherwise).head? = some row → row.depth = depth := by
  intro row hrow
  rw [lastRows] at hrow
  split at hrow
  · exact nomatch hrow
  · injection hrow with hrow
    rw [← hrow]

/-! ## Lines of a tree -/

/-- Lines that say what rows say, wherever in a script they stand. -/
def Shows (lines : List Line) (rows : List Row) : Prop :=
  lines.map (fun line => (line.indent, line.text)) = rows.map fun row => (row.indent, row.text)

section Shows

variable {depth : Nat} {lines front body back rest : List Line} {rows : List Row}

theorem shows_nil (hlines : Shows lines []) : lines = [] := List.map_eq_nil_iff.1 hlines

theorem shows_cons {text : Chars} (hlines : Shows lines (⟨depth, text⟩ :: rows)) :
    ∃ line rest, lines = line :: rest ∧ line.indent = 4 * depth ∧ line.text = text ∧
      Shows rest rows := by
  obtain ⟨line, rest, rfl, hline, hrest⟩ := List.map_eq_cons_iff.1 hlines
  obtain ⟨hindent, htext⟩ := Prod.mk.injEq .. ▸ hline
  exact ⟨line, rest, rfl, hindent, htext, hrest⟩

theorem shows_append {first second : List Row} (hlines : Shows lines (first ++ second)) :
    ∃ front back, lines = front ++ back ∧ Shows front first ∧ Shows back second := by
  rw [Shows, List.map_append] at hlines
  exact List.map_eq_append_iff.1 hlines

/-- What holds for the indentations of rows holds for the lines that show them. -/
theorem Shows.forall_indent (hlines : Shows lines rows) {p : Nat → Prop}
    (hrows : ∀ row ∈ rows, p row.indent) : ∀ line ∈ lines, p line.indent := by
  intro line hline
  have hmem : (line.indent, line.text) ∈ rows.map fun row => (row.indent, row.text) :=
    hlines ▸ List.mem_map_of_mem hline
  obtain ⟨row, hrow, heq⟩ := List.mem_map.1 hmem
  injection heq with hindent
  exact hindent ▸ hrows row hrow

/-- Lines that go on no deeper than a depth. -/
def Leaves (depth : Nat) (lines : List Line) : Prop :=
  ∀ line, lines.head? = some line → line.indent ≤ 4 * depth

/-- Lines that go on with another statement, which is no deeper than a depth. -/
def Follows (depth : Nat) (lines : List Line) : Prop :=
  ∀ line, lines.head? = some line → line.indent ≤ 4 * depth ∧ IsStart line.text

theorem Follows.leaves (hlines : Follows depth lines) : Leaves depth lines :=
  fun line hline => (hlines line hline).1

/-- Lines of this depth, if any, before lines that go on no deeper. -/
theorem Shows.leaves_append (hfront : Shows front rows)
    (hrows : ∀ row, rows.head? = some row → row.depth = depth) (hback : Leaves depth back) :
    Leaves depth (front ++ back) := by
  cases rows with
  | nil =>
      rw [shows_nil hfront]
      exact hback
  | cons row rows =>
      obtain ⟨line, others, rfl, hindent, _⟩ := shows_cons hfront
      intro first hfirst
      injection hfirst with hfirst
      rw [← hfirst, hindent, hrows row rfl]

theorem follows_of_shows {statements : List Statement}
    (hprintable : Statement.AllPrintable statements)
    (hlines : Shows lines (Statement.blockRows depth statements)) : Follows depth lines := by
  cases statements with
  | nil =>
      rw [shows_nil hlines]
      exact nofun
  | cons first rest =>
      obtain ⟨text, others, hrows, hstart⟩ := Statement.rows_eq_cons hprintable.1 depth
      rw [Statement.blockRows, hrows, List.cons_append] at hlines
      obtain ⟨line, rest, rfl, hindent, htext, _⟩ := shows_cons hlines
      intro head hhead
      injection hhead with hhead
      rw [← hhead, hindent, htext]
      exact ⟨Nat.le_refl _, hstart⟩

namespace Block

/-- A head owns the block under it and nothing after the block. -/
theorem owned_append {statements : List Statement}
    (hbody : Shows body (Statement.blockRows (depth + 1) statements)) (hback : Leaves depth back) :
    owned (4 * depth) (body ++ back) = body ∧ after (4 * depth) (body ++ back) = back := by
  have hdeep : ∀ line ∈ body, decide (4 * depth < line.indent) = true := by
    apply hbody.forall_indent (p := fun indent => decide (4 * depth < indent) = true)
    intro row hrow
    have hdepth := Statement.le_depth_blockRows statements (depth + 1) row hrow
    rw [decide_eq_true_eq, Row.indent]
    omega
  have hstop : ∀ line, back.head? = some line → decide (4 * depth < line.indent) = false :=
    fun line hline => decide_eq_false (Nat.not_lt.2 (hback line hline))
  exact ⟨takeWhile_append_of_stop hdeep hstop, dropWhile_append_of_stop hdeep hstop⟩

theorem continuation?_of_isStart {indent : Nat} {line : Line} (hline : IsStart line.text) :
    continuation? indent line = none := by
  rw [continuation?, hline.noElseIf, ite_self]

theorem isLastPart_of_isStart {indent : Nat} {line : Line} (hline : IsStart line.text) :
    isLastPart indent line = false := by
  rw [isLastPart, hline.noElse, Bool.and_false]

theorem chainOfLines_of_follows (hback : Follows depth back) :
    chainOfLines (4 * depth) back = ([], []) := by
  cases back with
  | nil => rw [chainOfLines]
  | cons line rest =>
      obtain ⟨_, hstart⟩ := hback line rfl
      rw [chainOfLines, continuation?_of_isStart hstart]
      dsimp only
      rw [isLastPart_of_isStart hstart, if_neg Bool.false_ne_true]

theorem afterChain_of_follows (hback : Follows depth back) :
    afterChain (4 * depth) back = back := by
  cases back with
  | nil => rw [afterChain]
  | cons line rest =>
      obtain ⟨_, hstart⟩ := hback line rfl
      rw [afterChain, continuation?_of_isStart hstart, isLastPart_of_isStart hstart]
      rfl

/-- A line that is no head of a branch is read as a statement of its own. -/
theorem ofLines_line {text : Chars} {statement : Statement} (hfront : Shows front [⟨depth, text⟩])
    (hif : ifCondition? text = none) (hsimple : ∀ line : Line, line.text = text →
      (simple? line).map Statement.unnumbered = some statement.unnumbered) :
    Statement.allUnnumbered (ofLines (front ++ back)) =
      statement.unnumbered :: Statement.allUnnumbered (ofLines back) := by
  obtain ⟨line, others, rfl, _, htext, hothers⟩ := shows_cons hfront
  obtain ⟨found, hfound, hsame⟩ := Option.map_eq_some_iff.1 (hsimple line htext)
  rw [shows_nil hothers, List.singleton_append, ofLines, htext, hif]
  dsimp only
  rw [hfound, Option.toList_some, List.singleton_append, Statement.allUnnumbered, hsame]

/-- What a head of a branch is read as. -/
theorem ofLines_if {line : Line} {condition : Chars} (hcondition : IsCondition condition)
    (hline : line.text = ifText ++ condition) : ofLines (line :: rest) =
      let chain := chainOfLines line.indent (after line.indent rest)
      .chain line.number
        (.mk line.number condition (ofLines (owned line.indent rest)) :: chain.1) chain.2 ::
        ofLines (afterChain line.indent (after line.indent rest)) := by
  rw [ofLines, hline, ifCondition?_if hcondition]
  dsimp only
  rw [cleanCondition_of_isCondition hcondition]

theorem continuation?_elseIf {line : Line} {condition : Chars} (hcondition : IsCondition condition)
    (hindent : line.indent = 4 * depth) (hline : line.text = elseIfText ++ condition) :
    continuation? (4 * depth) line = some condition := by
  rw [continuation?, if_pos hindent, hline, elseIfCondition?_elseIf hcondition]

/-- The last part of a chain and what follows it. -/
theorem chainOfLines_lastRows {otherwise : List Statement}
    (hfront : Shows front (lastRows depth otherwise)) (hback : Follows depth back)
    (hotherwise : ∀ lines, Shows lines (Statement.blockRows (depth + 1) otherwise) →
      Statement.allUnnumbered (ofLines lines) = Statement.allUnnumbered otherwise) :
    (chainOfLines (4 * depth) (front ++ back)).1 = [] ∧
      Statement.allUnnumbered (chainOfLines (4 * depth) (front ++ back)).2 =
        Statement.allUnnumbered otherwise ∧
      afterChain (4 * depth) (front ++ back) = back := by
  rw [lastRows] at hfront
  split at hfront
  · next hempty =>
      rw [shows_nil hfront, List.nil_append, chainOfLines_of_follows hback,
        afterChain_of_follows hback, List.isEmpty_iff.1 hempty]
      exact ⟨rfl, rfl, rfl⟩
  · obtain ⟨line, body, rfl, hindent, htext, hbody⟩ := shows_cons hfront
    obtain ⟨howned, hafter⟩ := owned_append hbody hback.leaves
    have hnone : continuation? (4 * depth) line = none := by
      rw [continuation?, htext]
      exact ite_self _
    have hlast : isLastPart (4 * depth) line = true := by
      rw [isLastPart, htext, beq_iff_eq.2 hindent]
      rfl
    have hchain : chainOfLines (4 * depth) (line :: (body ++ back)) = ([], ofLines body) := by
      rw [chainOfLines, hnone]
      dsimp only
      rw [if_pos hlast, howned]
    have hrest : afterChain (4 * depth) (line :: (body ++ back)) = back := by
      rw [afterChain, hnone, hlast, hafter]
      rfl
    rw [List.cons_append, hchain, hrest]
    exact ⟨rfl, hotherwise body hbody, rfl⟩

mutual

/-- The lines of a statement are read as the statement, whatever statements follow it. -/
theorem ofLines_rows (statement : Statement) (hprintable : statement.Printable) {depth : Nat}
    {front back : List Line} (hfront : Shows front (statement.rows depth))
    (hback : Follows depth back) : Statement.allUnnumbered (ofLines (front ++ back)) =
      statement.unnumbered :: Statement.allUnnumbered (ofLines back) := by
  match statement, hprintable with
  | .assign _ name expression, ⟨⟨hname, hif⟩, hexpression⟩ =>
      refine ofLines_line hfront (ifCondition?_assign hname hif expression) fun line htext => ?_
      rw [simple?_assign hname hexpression htext]
      rfl
  | .destructure _ names triple arguments, ⟨⟨hne, hlength, hnames⟩, harguments⟩ =>
      refine ofLines_line hfront (ifCondition?_destructure names triple arguments)
        fun line htext => ?_
      rw [simple?_destructure hne hlength hnames harguments htext]
      rfl
  | .signal _ kind label, hlabel =>
      refine ofLines_line hfront (ifCondition?_signal kind label) fun line htext => ?_
      rw [simple?_signal hlabel htext]
      rfl
  | .chain _ (.mk _ condition body :: branches) otherwise,
      ⟨_, ⟨hcondition, hbody, hbranches⟩, hotherwise⟩ =>
      -- The head owns `inner`; the further branches are read off `later`, and `last` ends the chain.
      have hrows : Shows front (Branch.rows depth ifText (.mk _ condition body :: branches) ++
          lastRows depth otherwise) := hfront
      obtain ⟨taken, last, rfl, htaken, hlast⟩ := shows_append hrows
      obtain ⟨line, others, rfl, hindent, htext, hothers⟩ := shows_cons htaken
      obtain ⟨inner, later, rfl, hinner, hlater⟩ := shows_append hothers
      have hleaves : Leaves depth (last ++ back) :=
        hlast.leaves_append depth_head?_lastRows hback.leaves
      obtain ⟨howned, hafter⟩ :=
        owned_append hinner (hlater.leaves_append Branch.depth_head?_rows hleaves)
      obtain ⟨hmore, hsame, hskip⟩ := chainOfLines_rows branches hbranches hlater hleaves
      obtain ⟨hnone, helse, hend⟩ := chainOfLines_lastRows hlast hback fun lines hlines =>
        ofLines_blockRows otherwise hotherwise hlines
      rw [List.cons_append, List.cons_append, List.append_assoc, List.append_assoc,
        ofLines_if hcondition htext]
      dsimp only
      rw [hindent, howned, hafter, hskip, hend, Statement.allUnnumbered, Statement.unnumbered,
        Statement.unnumbered, hsame, helse, Branch.allUnnumbered, Branch.allUnnumbered, hmore,
        hnone, ofLines_blockRows body hbody hinner, Branch.allUnnumbered, List.append_nil]
  | .chain _ [] otherwise, ⟨hne, _⟩ => exact absurd rfl hne

/-- The lines of a block are read as the block. -/
theorem ofLines_blockRows (statements : List Statement)
    (hprintable : Statement.AllPrintable statements) {depth : Nat} {lines : List Line}
    (hlines : Shows lines (Statement.blockRows depth statements)) :
    Statement.allUnnumbered (ofLines lines) = Statement.allUnnumbered statements := by
  match statements, hprintable with
  | [], _ =>
      rw [shows_nil hlines, ofLines]
  | first :: rest, ⟨hfirst, hrest⟩ =>
      obtain ⟨front, back, rfl, hfront, hback⟩ := shows_append hlines
      rw [ofLines_rows first hfirst hfront (follows_of_shows hrest hback),
        ofLines_blockRows rest hrest hback, Statement.allUnnumbered]

/-- The lines of further branches are read as these branches, whatever the chain goes on with. -/
theorem chainOfLines_rows (branches : List Branch) (hprintable : Branch.AllPrintable branches)
    {depth : Nat} {front back : List Line}
    (hfront : Shows front (Branch.rows depth elseIfText branches)) (hback : Leaves depth back) :
    Branch.allUnnumbered (chainOfLines (4 * depth) (front ++ back)).1 =
        Branch.allUnnumbered branches ++
          Branch.allUnnumbered (chainOfLines (4 * depth) back).1 ∧
      (chainOfLines (4 * depth) (front ++ back)).2 = (chainOfLines (4 * depth) back).2 ∧
      afterChain (4 * depth) (front ++ back) = afterChain (4 * depth) back := by
  match branches, hprintable with
  | [], _ =>
      rw [shows_nil hfront]
      exact ⟨rfl, rfl, rfl⟩
  | .mk _ condition body :: rest, ⟨hcondition, hbody, hrest⟩ =>
      obtain ⟨line, others, rfl, hindent, htext, hothers⟩ := shows_cons hfront
      obtain ⟨inner, later, rfl, hinner, hlater⟩ := shows_append hothers
      obtain ⟨hbranches, hlast, hafter⟩ := chainOfLines_rows rest hrest hlater hback
      obtain ⟨howned, hrestLines⟩ :=
        owned_append hinner (hlater.leaves_append Branch.depth_head?_rows hback)
      have hcontinues := continuation?_elseIf hcondition hindent htext
      rw [List.cons_append, List.append_assoc, chainOfLines, afterChain, hcontinues]
      dsimp only
      rw [howned, hrestLines, hlast, hafter, cleanCondition_of_isCondition hcondition,
        Branch.allUnnumbered, Branch.allUnnumbered, hbranches, ofLines_blockRows body hbody hinner]
      exact ⟨rfl, rfl, rfl⟩

end

end Block

end Shows

/-- Parsing a printed script gives the statements it was printed from, but for their lines. -/
theorem parse_print {statements : List Statement} (hprintable : Statement.AllPrintable statements) :
    Statement.allUnnumbered (parse (print statements)) = Statement.allUnnumbered statements :=
  Block.ofLines_blockRows statements hprintable
    (contentLines_printRows (Statement.isLineText_blockRows statements hprintable 0))

theorem isOperand_of_bare {text : Chars} (htext : IsLineText text)
    (hsignal : fromSignal? text = none) (hbare : ∀ c ∈ text, IsBare c ∧ c ≠ ',') :
    IsOperand text where
  toIsLineText := htext
  closed := .of_forall fun c hc => ⟨(hbare c hc).1, trivial⟩
  noSignal := hsignal
  noComma := .of_forall hbare

/-- A chain with a chain in its first branch, of which the first branch is empty. -/
def nestedScript : List Statement :=
  [.chain 1
    [.mk 1 "close > open".toList
      [.chain 2
        [.mk 2 "volume > 0".toList [],
          .mk 3 "close > ta.sma(close, 3)".toList
            [.signal 4 .closeShort (some "Short, // all")]]
        []]]
    [.destructure 6 ["m", "s"] .convergence ["close".toList, "12".toList]],
    .assign 7 "elsewhere" "m > s".toList]

/-- A block is left by two levels at once, and a comment sign in quotes is none. -/
theorem parse_print_nested : Statement.AllPrintable nestedScript ∧
    print nestedScript = ("if close > open\n" ++ "    if volume > 0\n" ++
      "    else if close > ta.sma(close, 3)\n" ++ "        strategy.close(\"Short, // all\")\n" ++
      "else\n" ++ "    [m, s] = ta.macd(close, 12)\n" ++ "elsewhere = m > s\n").toList ∧
    Statement.allUnnumbered (parse (print nestedScript)) =
      Statement.allUnnumbered nestedScript := by
  have hopening : IsOperand "close > open".toList :=
    isOperand_of_bare (by decide +kernel) (by decide +kernel) (by decide +kernel)
  have hvolume : IsOperand "volume > 0".toList :=
    isOperand_of_bare (by decide +kernel) (by decide +kernel) (by decide +kernel)
  have hsignal : IsOperand "m > s".toList :=
    isOperand_of_bare (by decide +kernel) (by decide +kernel) (by decide +kernel)
  have hoperands : ∀ text ∈ ["close".toList, "12".toList], IsOperand text := by
    rw [List.forall_mem_cons, List.forall_mem_singleton]
    exact ⟨isOperand_of_bare (by decide +kernel) (by decide +kernel) (by decide +kernel),
      isOperand_of_bare (by decide +kernel) (by decide +kernel) (by decide +kernel)⟩
  have haverage : IsPhrase "close > ta.sma(close, 3)".toList := by
    have hname : Outside (fun _ => True) "close > ta.sma".toList := .of_forall (by decide +kernel)
    have hinner : Outside (fun _ => True) "close, 3".toList := .of_forall (by decide +kernel)
    exact ⟨by decide +kernel, hname.append hinner.wrap, by decide +kernel⟩
  have hlabel : FitsLabel .closeShort (some "Short, // all") := by
    refine ⟨fun text htext => ?_, by decide +kernel⟩
    rw [← Option.some.inj htext]
    unfold IsLabel
    decide +kernel
  have hnames : ∀ name ∈ ["m", "s"], IsName name := by
    rw [List.forall_mem_cons, List.forall_mem_singleton]
    exact ⟨⟨by decide, by decide⟩, ⟨by decide, by decide⟩⟩
  have hprintable : Statement.AllPrintable nestedScript := by
    refine ⟨⟨List.cons_ne_nil _ _, ⟨⟨hopening.toIsPhrase, by decide +kernel⟩, ?_, trivial⟩, ?_⟩, ?_,
      trivial⟩
    · exact ⟨⟨List.cons_ne_nil _ _, ⟨⟨hvolume.toIsPhrase, by decide +kernel⟩, trivial,
        ⟨haverage, by decide +kernel⟩, ⟨hlabel, trivial⟩, trivial⟩, trivial⟩, trivial⟩
    · exact ⟨⟨⟨List.cons_ne_nil _ _, by decide, hnames⟩, hoperands⟩, trivial⟩
    · exact ⟨⟨⟨by decide +kernel, by decide +kernel⟩, by decide +kernel⟩, hsignal.toIsPhrase,
        by decide +kernel, by decide +kernel⟩
  exact ⟨hprintable, by decide +kernel, parse_print hprintable⟩

end Backtest.Script
