import Backtest.Arith

/-!
# Series

A series holds one value per bar, the oldest first.  Every indicator is a `scan`: it walks the bars
once and gives each bar a value that depends on the bars up to it alone.  Hence the two laws that
all indicators inherit:

* `length_scan`: the result has one value per bar;
* `scan_take`: on the first bars alone the result is the first part of the whole result.
-/

namespace Backtest

abbrev Series (α : Type) := List α

abbrev Flags := List Bool

namespace Series

variable {ι σ β : Type}

/-- Walks the bars with a state; each step gives the next state and the value of its bar. -/
def scan (step : σ → ι → σ × β) : σ → List ι → List β
  | _, [] => []
  | state, x :: rest => (step state x).2 :: scan step (step state x).1 rest

@[simp]
theorem scan_nil (step : σ → ι → σ × β) (state : σ) : scan step state [] = [] := rfl

@[simp]
theorem scan_cons (step : σ → ι → σ × β) (state : σ) (x : ι) (rest : List ι) :
    scan step state (x :: rest) = (step state x).2 :: scan step (step state x).1 rest := rfl

@[simp]
theorem length_scan (step : σ → ι → σ × β) (state : σ) (xs : List ι) :
    (scan step state xs).length = xs.length := by
  induction xs generalizing state with
  | nil => rfl
  | cons x rest ih => simp [ih]

theorem scan_take (step : σ → ι → σ × β) (state : σ) (count : Nat) (xs : List ι) :
    scan step state (xs.take count) = (scan step state xs).take count := by
  induction xs generalizing state count with
  | nil => simp
  | cons x rest ih =>
      cases count with
      | zero => simp
      | succ count => simp [ih]

/-- Gives each bar the value of a function of the bars so far, the latest of them first. -/
def trailing (value : List ι → β) (xs : List ι) : List β :=
  scan (fun past x => (x :: past, value (x :: past))) [] xs

@[simp]
theorem length_trailing (value : List ι → β) (xs : List ι) :
    (trailing value xs).length = xs.length := length_scan ..

theorem trailing_take (value : List ι → β) (count : Nat) (xs : List ι) :
    trailing value (xs.take count) = (trailing value xs).take count := scan_take ..

/-- Gives each bar the value of a function of the bar before it, if there is one, and the bar. -/
def stepwise (value : Option ι → ι → β) (xs : List ι) : List β :=
  scan (fun last x => (some x, value last x)) none xs

@[simp]
theorem length_stepwise (value : Option ι → ι → β) (xs : List ι) :
    (stepwise value xs).length = xs.length := length_scan ..

theorem stepwise_take (value : Option ι → ι → β) (count : Nat) (xs : List ι) :
    stepwise value (xs.take count) = (stepwise value xs).take count := scan_take ..

/-- Moves a series to later bars; `fill` stands in the bars that are left without a value. -/
def delay (fill : β) (count : Nat) (xs : List β) : List β :=
  (List.replicate (min count xs.length) fill ++ xs).take xs.length

@[simp]
theorem length_delay (fill : β) (count : Nat) (xs : List β) :
    (delay fill count xs).length = xs.length := by
  simp [delay]

/-- Keeps the first values of a series and puts them into its last bars. -/
def advance (fill : β) (count : Nat) (xs : List β) : List β :=
  List.replicate (xs.length - count) fill ++ xs.take count

/-- Moves a series by a number of bars, to later ones if the number is positive. -/
def shift (fill : β) (count : Int) (xs : List β) : List β :=
  if count < 0 then advance fill count.natAbs xs else delay fill count.toNat xs

/-- The numbers of a truth series: one where it holds and zero elsewhere. -/
def ofFlags {α : Type} [Arith α] (flags : Flags) : Series α :=
  flags.map fun flag => if flag then Arith.one else Arith.zero

end Series

end Backtest
