import Backtest.Search.Range

/-!
# Combinations

An axis lists the values of one parameter, and a combination takes one value of each axis.  When
there are no more combinations than a cap, all of them are visited, the first axis slowest;
otherwise as many distinct ones as the cap are drawn at random.
-/

namespace Backtest

/-- A parameter and its values. -/
abbrev Axis (α : Type) := String × List (Scalar α)

/-- A source of random naturals: each draw gives the next state. -/
abbrev RandomSource (σ : Type) := σ → Nat × σ

namespace Search

variable {α : Type} [Arith α]

/-- The lists of one value from each axis, the first axis slowest. -/
def choices : List (Axis α) → List (List (Scalar α))
  | [] => [[]]
  | axis :: rest => axis.2.flatMap fun value => (choices rest).map (value :: ·)

/-- The combination that gives the axes some values. -/
def combinationOf (axes : List (Axis α)) (values : List (Scalar α)) : Params α :=
  Record.ofEntries ((axes.map (·.1)).zip values)

def allCombinations (axes : List (Axis α)) : List (Params α) :=
  (choices axes).map (combinationOf axes)

/-- The number of combinations. -/
def size (axes : List (Axis α)) : Nat := (axes.map fun axis => axis.2.length).foldl (· * ·) 1

/-- The values of one draw per axis. -/
def drawValues {σ : Type} (draw : RandomSource σ) : List (Axis α) → σ → List (Scalar α) × σ
  | [], state => ([], state)
  | axis :: rest, state =>
      let (index, state) := draw state
      let (values, state) := drawValues draw rest state
      (axis.2[index % axis.2.length]?.getD .missing :: values, state)

/-- Two scalars have the same value.  Integers, numbers and truth values compare as numbers. -/
def sameScalar (x y : Scalar α) : Bool :=
  match x.number?, y.number? with
  | some (.real a), some (.real b) => Arith.same a b || (Arith.isNaN a && Arith.isNaN b)
  | some a, some b => a.same b
  | none, none => match x, y with
    | .text a, .text b => a == b
    | .missing, .missing => true
    | _, _ => false
  | _, _ => false

/-- Two combinations of the same axes have the same values. -/
def sameCombination (first second : Params α) : Bool :=
  (first.zip second).all fun entries => sameScalar entries.1.2 entries.2.2

/-- A list cannot be told apart from other values. -/
def hasList (combination : Params α) : Bool :=
  combination.any fun entry => match entry.2 with
    | .list _ => true
    | _ => false

/-- The combinations that are visited, and the fault that ends the visit, if one does. -/
structure Enumeration (α : Type) where
  combinations : List (Params α)
  fault : Option Fault

/-- Draws combinations until `missing` more distinct ones are found; at most `fuel` draws. -/
def sampleFrom {σ : Type} (draw : RandomSource σ) (axes : List (Axis α)) :
    Nat → Nat → List (Params α) → σ → Enumeration α
  | _, 0, _, _ => ⟨[], none⟩
  | 0, _ + 1, _, _ => ⟨[], some .neverEnds⟩
  | fuel + 1, missing + 1, seen, state =>
      let (values, state) := drawValues draw axes state
      let combination := combinationOf axes values
      if hasList combination then ⟨[], some .wrongType⟩
      else if seen.any (sameCombination combination) then
        sampleFrom draw axes fuel (missing + 1) seen state
      else
        let rest := sampleFrom draw axes fuel missing (combination :: seen) state
        ⟨combination :: rest.combinations, rest.fault⟩

/-- The draws after which a source of 64 bits of state has shown all that it will ever show, for
each combination that is asked for. -/
def drawBound (cap : Nat) : Nat := (cap + 1) * Nat.pow 2 64

/-- The combinations of some axes: all of them, or a sample of as many as the cap. -/
def enumerate {σ : Type} (draw : RandomSource σ) (seed : σ) (axes : List (Axis α)) (cap : Int) :
    Enumeration α :=
  if (size axes : Int) ≤ cap then ⟨allCombinations axes, none⟩
  else sampleFrom draw axes (drawBound cap.toNat) cap.toNat [] seed

end Search

end Backtest
