import Backtest.Search.Range

/-!
# Values on the command line

The texts in which a command line gives parameters and ranges.
-/

namespace Backtest.Command

open Text

variable {α : Type} [Arith α]

/-- An integer, a number, a truth value, or else the text itself, trimmed. -/
def valueOf (text : Chars) : Scalar α :=
  let word := String.ofList ((trim text).map Char.toLower)
  if word = "true" then .flag true
  else if word = "false" then .flag false
  else match Decimal.integer? text with
    | some n => .int n
    | none => match Decimal.number? text with
      | some x => .real x
      | none => .text (String.ofList (trim text))

/-- A parameter given as `name=value`. -/
def assignmentOf (text : String) : Outcome (String × Scalar α) :=
  match cutAt '=' text.toList with
  | some (before, value) =>
      let name := trim before
      if name.isEmpty then .error (.badAssignment text)
      else .ok (String.ofList name, valueOf value)
  | none => .error (.badAssignment text)

/-- A range given as `name=least:greatest` with an optional step.  It is a range of integers if all
its numbers are whole. -/
def rangeOf (text : String) : Outcome (Range α) :=
  let bad : Outcome (Range α) := .error (.badRange text)
  match cutAt '=' text.toList with
  | none => bad
  | some (before, bounds) =>
      let name := trim before
      let parts := pieces ':' bounds
      if name.isEmpty ∨ (parts.length ≠ 2 ∧ parts.length ≠ 3) then bad
      else match parts.mapM (fun part => (Decimal.number? part : Option α)) with
        | some (least :: greatest :: rest) =>
            let step := rest.head?.getD Arith.one
            let whole := (least :: greatest :: rest).all Arith.isWhole
            .ok ⟨String.ofList name, .real least, .real greatest, .real step,
              if whole then "int" else "float", "", true⟩
        | _ => .error (.badBound text)

end Backtest.Command
