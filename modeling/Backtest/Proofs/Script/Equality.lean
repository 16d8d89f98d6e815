import Backtest.Script.Statement
import Mathlib.Tactic.Common

/-!
# Equality of statements

Whether two statements are equal can be computed, so that what a closed script is read as can be
decided.
-/

namespace Backtest.Script

mutual

/-- Compares two statements with all that is under them. -/
def Statement.same : Statement → Statement → Bool
  | .assign line name expression, .assign line' name' expression' =>
      line == line' && name == name' && expression == expression'
  | .destructure line names triple arguments, .destructure line' names' triple' arguments' =>
      line == line' && names == names' && decide (triple = triple') && arguments == arguments'
  | .signal line kind label, .signal line' kind' label' =>
      line == line' && decide (kind = kind') && label == label'
  | .chain line branches otherwise, .chain line' branches' otherwise' =>
      line == line' && sameBranches branches branches' && sameBlock otherwise otherwise'
  | _, _ => false

def sameBlock : List Statement → List Statement → Bool
  | [], [] => true
  | first :: rest, first' :: rest' => first.same first' && sameBlock rest rest'
  | _, _ => false

def Branch.same : Branch → Branch → Bool
  | .mk line condition body, .mk line' condition' body' =>
      line == line' && condition == condition' && sameBlock body body'

def sameBranches : List Branch → List Branch → Bool
  | [], [] => true
  | first :: rest, first' :: rest' => first.same first' && sameBranches rest rest'
  | _, _ => false

end

mutual

theorem Statement.same_iff (first : Statement) :
    ∀ second : Statement, first.same second = true ↔ first = second := by
  intro second
  cases first with
  | chain line branches otherwise =>
      cases second with
      | chain line' branches' otherwise' =>
          simp [Statement.same, sameBranches_iff branches branches',
            sameBlock_iff otherwise otherwise', and_assoc]
      | _ => simp [Statement.same]
  | _ => cases second <;> simp [Statement.same, and_assoc]

theorem sameBlock_iff (first : List Statement) :
    ∀ second : List Statement, sameBlock first second = true ↔ first = second := by
  intro second
  cases first with
  | nil => cases second <;> simp [sameBlock]
  | cons statement rest =>
      cases second with
      | nil => simp [sameBlock]
      | cons other others =>
          simp [sameBlock, statement.same_iff other, sameBlock_iff rest others]

theorem Branch.same_iff (first : Branch) :
    ∀ second : Branch, first.same second = true ↔ first = second := by
  intro second
  obtain ⟨line, condition, body⟩ := first
  obtain ⟨line', condition', body'⟩ := second
  simp [Branch.same, sameBlock_iff body body', and_assoc]

theorem sameBranches_iff (first : List Branch) :
    ∀ second : List Branch, sameBranches first second = true ↔ first = second := by
  intro second
  cases first with
  | nil => cases second <;> simp [sameBranches]
  | cons branch rest =>
      cases second with
      | nil => simp [sameBranches]
      | cons other others =>
          simp [sameBranches, branch.same_iff other, sameBranches_iff rest others]

end

instance : DecidableEq Statement := fun first second =>
  decidable_of_iff _ (Statement.same_iff first second)

end Backtest.Script
