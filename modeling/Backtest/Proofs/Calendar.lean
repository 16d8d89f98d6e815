import Backtest.Calendar
import Mathlib.Algebra.Order.Ring.Int
import Mathlib.Data.Prod.Lex
import Mathlib.Tactic.IntervalCases

/-!
# The days of the calendar

Days are counted from 1970-01-01, and the day after a day has the next number: it is in the same
month, or the first of the next one, with a leap day in the years that `isLeap` tells
(`ofNumber_zero`, `ofNumber_succ`).  So the numbers of days are all integers, in the order of dates:
by year, then by month, then by day of the month (`date_lt_date`).

The day of a number is found from a guess of its year and then month by month.  This finds the only
day that has the number (`ofNumber_number`, `exists_number`).  Hence each moment falls on one day
(`onDay_iff`), days follow each other as their moments do (`OnDay.date_le_date`), and a bound on the
date of a moment is a bound on the moment (`OnDay.le_date_iff`, `OnDay.date_le_iff`).
-/

namespace Backtest.Calendar

/-- A day that the calendar has. -/
structure Day.IsValid (day : Day) : Prop where
  month_pos : 1 ≤ day.month
  month_le : day.month ≤ 12
  day_pos : 1 ≤ day.day
  day_le : day.day ≤ monthLength day.year day.month

/-- A day in the order of dates: by year, then by month, then by day of the month. -/
def Day.date (day : Day) : ℤ ×ₗ ℕ ×ₗ ℕ := toLex (day.year, toLex (day.month, day.day))

/-- A year and a month in the order of time. -/
def monthKey (month : ℤ × ℕ) : ℤ ×ₗ ℕ := toLex month

/-! ## Years -/

section Years

/-- The days of a year. -/
def yearLength (year : ℤ) : ℕ := (monthLengths (isLeap year)).sum

theorem yearLength_eq (year : ℤ) : yearLength year = if isLeap year then 366 else 365 := by
  rw [yearLength]
  cases isLeap year <;> rfl

theorem yearStart_eq (year : ℤ) : yearStart year =
    365 * (year - 1) + (year - 1) / 4 - (year - 1) / 100 + (year - 1) / 400 - 719162 := by
  have hepoch : daysBeforeYear 1970 = 719162 := by decide
  rw [yearStart, hepoch, daysBeforeYear, Int.fdiv_eq_ediv_of_nonneg _ (by decide),
    Int.fdiv_eq_ediv_of_nonneg _ (by decide), Int.fdiv_eq_ediv_of_nonneg _ (by decide)]

theorem isLeap_iff {year : ℤ} :
    isLeap year = true ↔ year % 4 = 0 ∧ (year % 100 ≠ 0 ∨ year % 400 = 0) := by
  simp [isLeap]

/-- A year starts when the year before it is over. -/
theorem yearStart_succ (year : ℤ) : yearStart (year + 1) = yearStart year + yearLength year := by
  rw [yearStart_eq, yearStart_eq, yearLength_eq]
  split
  · next hleap =>
      rw [isLeap_iff] at hleap
      omega
  · next hleap =>
      rw [isLeap_iff] at hleap
      omega

theorem yearStart_le_yearStart {first second : ℤ} (hle : first ≤ second) :
    yearStart first ≤ yearStart second := by
  rw [yearStart_eq, yearStart_eq]
  omega

/-- The year of a number by the mean length of a year is at most one year off. -/
theorem yearStart_guess {number guess : ℤ} (hguess : guess = number * 400 / 146097 + 1970) :
    yearStart (guess - 1) ≤ number ∧ number < yearStart (guess + 2) := by
  rw [yearStart_eq, yearStart_eq]
  omega

/-- A day falls into its year. -/
theorem yearOf_bounds (number : ℤ) :
    yearStart (yearOf number) ≤ number ∧ number < yearStart (yearOf number + 1) := by
  have hmean : Int.fdiv (number * 400) 146097 = number * 400 / 146097 :=
    Int.fdiv_eq_ediv_of_nonneg _ (by decide)
  rw [yearOf, hmean]
  obtain ⟨guess, hguess⟩ : ∃ guess, guess = number * 400 / 146097 + 1970 := ⟨_, rfl⟩
  obtain ⟨hbefore, hafter⟩ := yearStart_guess hguess
  rw [← hguess]
  by_cases hlater : yearStart (guess + 1) ≤ number
  · simp only [List.find?_cons, hlater, decide_true, Option.getD_some]
    exact ⟨trivial, by rwa [Int.add_assoc]⟩
  · by_cases hsame : yearStart guess ≤ number
    · simp only [List.find?_cons, hlater, hsame, decide_true, decide_false, Option.getD_some]
      exact ⟨trivial, Int.not_le.1 hlater⟩
    · simp only [List.find?_cons, List.find?_nil, hlater, hsame, decide_false, Option.getD_none]
      exact ⟨hbefore, by rw [Int.sub_add_cancel]; exact Int.not_le.1 hsame⟩

/-- The year of a number is the only one that has it among its days. -/
theorem yearOf_eq {year number : ℤ} (hstart : yearStart year ≤ number)
    (hend : number < yearStart (year + 1)) : yearOf number = year := by
  obtain ⟨hle, hlt⟩ := yearOf_bounds number
  by_contra hne
  rcases lt_or_gt_of_ne hne with hbefore | hafter
  · have := yearStart_le_yearStart (Int.add_one_le_of_lt hbefore)
    omega
  · have := yearStart_le_yearStart (Int.add_one_le_of_lt hafter)
    omega

end Years

/-! ## Months -/

section Months

theorem daysBeforeMonth_eq (year : ℤ) (month : ℕ) :
    daysBeforeMonth year month = ((monthLengths (isLeap year)).take (month - 1)).sum :=
  List.sum_eq_foldl.symm

theorem length_monthLengths (leap : Bool) : (monthLengths leap).length = 12 := rfl

theorem getElem?_monthLengths {day : Day} (hday : day.IsValid) :
    (monthLengths (isLeap day.year))[day.month - 1]? = some (monthLength day.year day.month) := by
  have hplace : day.month - 1 < (monthLengths (isLeap day.year)).length := by
    have := hday.month_pos
    have := hday.month_le
    rw [length_monthLengths]
    omega
  rw [monthLength, List.getElem?_eq_getElem hplace]
  rfl

/-- The days before a month and the days of the month are the days before the next one. -/
theorem sum_take_succ {lengths : List ℕ} {index length : ℕ}
    (hlength : lengths[index]? = some length) :
    (lengths.take (index + 1)).sum = (lengths.take index).sum + length := by
  rw [List.take_add_one, hlength, List.sum_append]
  rfl

theorem sum_take_le_sum_take (lengths : List ℕ) {first second : ℕ} (hle : first ≤ second) :
    (lengths.take first).sum ≤ (lengths.take second).sum := by
  rw [← Nat.add_sub_of_le hle, List.take_add, List.sum_append]
  exact Nat.le_add_right ..

/-- A day of a month is found in it. -/
theorem monthOf_eq {lengths : List ℕ} {index length rest : ℕ}
    (hlength : lengths[index]? = some length) (hrest : rest < length) (month : ℕ) :
    monthOf month lengths ((lengths.take index).sum + rest) = (month + index, rest + 1) := by
  induction lengths generalizing month index with
  | nil => exact nomatch hlength
  | cons first others ih =>
      cases index with
      | zero =>
          obtain rfl : first = length := Option.some.inj hlength
          rw [List.take_zero, List.sum_nil, Nat.zero_add, monthOf, if_pos hrest]
          rfl
      | succ index =>
          have hlate : ¬ first + (others.take index).sum + rest < first := by omega
          have hleft : first + (others.take index).sum + rest - first =
            (others.take index).sum + rest := by omega
          rw [List.take_succ_cons, List.sum_cons, monthOf, if_neg hlate, hleft,
            ih hlength (month + 1), Nat.add_right_comm, Nat.add_assoc]

/-- Each day of a year is in one of its months. -/
theorem exists_month {lengths : List ℕ} {place : ℕ} (hplace : place < lengths.sum) :
    ∃ index length rest, lengths[index]? = some length ∧ rest < length ∧
      place = (lengths.take index).sum + rest := by
  induction lengths generalizing place with
  | nil => exact absurd hplace (Nat.not_lt_zero _)
  | cons first others ih =>
      rcases Nat.lt_or_ge place first with hfirst | hlater
      · exact ⟨0, first, place, rfl, hfirst, (Nat.zero_add _).symm⟩
      · rw [List.sum_cons] at hplace
        obtain ⟨index, length, rest, hlength, hrest, heq⟩ := ih (by omega : place - first < _)
        refine ⟨index + 1, length, rest, hlength, hrest, ?_⟩
        rw [List.take_succ_cons, List.sum_cons]
        omega

end Months

/-! ## Numbers -/

section Numbers

variable {day first second : Day}

/-- The days of the year before a day. -/
def Day.place (day : Day) : ℕ := daysBeforeMonth day.year day.month + (day.day - 1)

theorem Day.number_eq (day : Day) : day.number = yearStart day.year + day.place := by
  rw [number, place, Int.natCast_add, Int.add_assoc]

/-- A day is over when the month is, and the month when the year is. -/
theorem Day.IsValid.place_lt (hday : day.IsValid) :
    day.place < daysBeforeMonth day.year (day.month + 1) ∧
      daysBeforeMonth day.year (day.month + 1) ≤ yearLength day.year := by
  have hmonth : day.month + 1 - 1 = day.month - 1 + 1 := by
    have := hday.month_pos
    omega
  have hnext : daysBeforeMonth day.year (day.month + 1) =
      daysBeforeMonth day.year day.month + monthLength day.year day.month := by
    rw [daysBeforeMonth_eq, hmonth, sum_take_succ (getElem?_monthLengths hday), daysBeforeMonth_eq]
  have hday_pos := hday.day_pos
  have hday_le := hday.day_le
  constructor
  · rw [hnext, Day.place]
    omega
  · rw [daysBeforeMonth_eq, yearLength]
    exact (sum_take_le_sum_take _ (Nat.le_max_left ..)).trans_eq
      (congrArg List.sum (List.take_of_length_le (Nat.le_max_right ..)))

theorem Day.IsValid.number_lt_yearStart (hday : day.IsValid) :
    day.number < yearStart (day.year + 1) := by
  have hplace := hday.place_lt.1.trans_le hday.place_lt.2
  rw [Day.number_eq, yearStart_succ]
  omega

/-- The number of a day is that of no other day. -/
theorem ofNumber_number (hday : day.IsValid) : Day.ofNumber day.number = day := by
  have hstart : yearStart day.year ≤ day.number := by
    rw [Day.number_eq]
    omega
  have hyear := yearOf_eq hstart hday.number_lt_yearStart
  have hplace : (day.number - yearStart day.year).toNat =
      ((monthLengths (isLeap day.year)).take (day.month - 1)).sum + (day.day - 1) := by
    rw [Day.number_eq, add_sub_cancel_left, Int.toNat_natCast, Day.place, daysBeforeMonth_eq]
  have hday_pos := hday.day_pos
  have hday_le := hday.day_le
  have hmonth := monthOf_eq (getElem?_monthLengths hday) (by omega : day.day - 1 < _) 1
  rw [Day.ofNumber, hyear, hplace, hmonth]
  have hback : (1 + (day.month - 1), day.day - 1 + 1) = (day.month, day.day) :=
    Prod.ext (Nat.add_sub_cancel' hday.month_pos) (Nat.sub_add_cancel hday_pos)
  rw [hback]

/-- Every number is that of a day. -/
theorem exists_number (number : ℤ) : ∃ day : Day, day.IsValid ∧ day.number = number := by
  obtain ⟨hstart, hend⟩ := yearOf_bounds number
  rw [yearStart_succ] at hend
  obtain ⟨index, length, rest, hlength, hrest, heq⟩ :=
    exists_month (by rw [yearLength] at hend; omega :
      (number - yearStart (yearOf number)).toNat < (monthLengths (isLeap (yearOf number))).sum)
  have hindex : index < 12 := (List.getElem?_eq_some_iff.1 hlength).1
  refine ⟨⟨yearOf number, index + 1, rest + 1⟩, ⟨Nat.le_add_left 1 index, hindex,
    Nat.le_add_left 1 rest, ?_⟩, ?_⟩
  · rw [monthLength, Nat.add_sub_cancel, hlength]
    exact hrest
  · rw [Day.number_eq, Day.place, daysBeforeMonth_eq, Nat.add_sub_cancel, Nat.add_sub_cancel, ← heq]
    change yearStart (yearOf number) + _ = number
    omega

theorem isValid_ofNumber (number : ℤ) : (Day.ofNumber number).IsValid := by
  obtain ⟨day, hday, rfl⟩ := exists_number number
  rwa [ofNumber_number hday]

theorem number_ofNumber (number : ℤ) : (Day.ofNumber number).number = number := by
  obtain ⟨day, hday, rfl⟩ := exists_number number
  rw [ofNumber_number hday]

theorem date_lt_date_iff : first.date < second.date ↔ first.year < second.year ∨
    first.year = second.year ∧
      (first.month < second.month ∨ first.month = second.month ∧ first.day < second.day) := by
  rw [Day.date, Day.date, Prod.Lex.toLex_lt_toLex, Prod.Lex.toLex_lt_toLex]

/-- Later dates have greater numbers. -/
theorem number_lt_of_date_lt (hfirst : first.IsValid) (hdate : first.date < second.date) :
    first.number < second.number := by
  rw [Day.number_eq second]
  rcases date_lt_date_iff.1 hdate with hyear | ⟨hyear, hmonth | ⟨hmonth, hday⟩⟩
  · have hstart := yearStart_le_yearStart (Int.add_one_le_of_lt hyear)
    have hend := hfirst.number_lt_yearStart
    omega
  · have hnext : daysBeforeMonth second.year (first.month + 1) ≤
        daysBeforeMonth second.year second.month := by
      rw [daysBeforeMonth_eq, daysBeforeMonth_eq]
      exact sum_take_le_sum_take _ (Nat.le_sub_one_of_lt hmonth)
    have hbefore := hfirst.place_lt.1
    rw [hyear] at hbefore
    rw [Day.number_eq, hyear, Day.place.eq_def second]
    omega
  · have hpos := hfirst.day_pos
    rw [Day.number_eq, Day.place, Day.place, hyear, hmonth]
    omega

theorem eq_of_date_eq (hdate : first.date = second.date) : first = second := by
  cases first
  cases second
  obtain ⟨rfl, hrest⟩ := Prod.mk.inj hdate
  obtain ⟨rfl, rfl⟩ := Prod.mk.inj hrest
  rfl

/-- Dates follow each other as their numbers do. -/
theorem date_lt_date {number later : ℤ} (hlt : number < later) :
    (Day.ofNumber number).date < (Day.ofNumber later).date := by
  by_contra hnot
  rcases (not_lt.1 hnot).lt_or_eq with hbefore | hsame
  · have hback := number_lt_of_date_lt (isValid_ofNumber _) hbefore
    rw [number_ofNumber, number_ofNumber] at hback
    exact hlt.not_gt hback
  · have hnumber := congrArg Day.number (eq_of_date_eq hsame)
    rw [number_ofNumber, number_ofNumber] at hnumber
    exact hlt.ne' hnumber

theorem date_le_date_iff (hfirst : first.IsValid) (hsecond : second.IsValid) :
    first.date ≤ second.date ↔ first.number ≤ second.number := by
  have hmono : StrictMono fun number => (Day.ofNumber number).date := fun _ _ => date_lt_date
  have hle := hmono.le_iff_le (a := first.number) (b := second.number)
  rwa [ofNumber_number hfirst, ofNumber_number hsecond] at hle

end Numbers

/-! ## The next day -/

/-- The day after a day. -/
def Day.next (day : Day) : Day :=
  if day.day < monthLength day.year day.month then ⟨day.year, day.month, day.day + 1⟩
  else if day.month < 12 then ⟨day.year, day.month + 1, 1⟩
  else ⟨day.year + 1, 1, 1⟩

theorem one_le_monthLength (year : ℤ) {month : ℕ} (hpos : 1 ≤ month) (hle : month ≤ 12) :
    1 ≤ monthLength year month := by
  rw [monthLength]
  cases isLeap year <;> interval_cases month <;> decide

theorem Day.IsValid.next {day : Day} (hday : day.IsValid) : day.next.IsValid := by
  rw [Day.next]
  split
  · next hlt => exact ⟨hday.month_pos, hday.month_le, Nat.le_add_left .., hlt⟩
  · split
    · next hlt =>
        exact ⟨Nat.le_add_left .., hlt, le_rfl, one_le_monthLength _ (Nat.le_add_left ..) hlt⟩
    · have htwelve : 1 ≤ 12 := by decide
      exact ⟨le_rfl, htwelve, le_rfl, one_le_monthLength _ le_rfl htwelve⟩

/-- Counting days goes on by one from each day to the next. -/
theorem number_next {day : Day} (hday : day.IsValid) : day.next.number = day.number + 1 := by
  have hpos := hday.day_pos
  have hlast := hday.day_le
  have hmonth : day.month - 1 + 1 = day.month := Nat.sub_add_cancel hday.month_pos
  have hnext := sum_take_succ (getElem?_monthLengths hday)
  rw [hmonth] at hnext
  rw [Day.number_eq, Day.number_eq, Day.place, Day.place, daysBeforeMonth_eq, daysBeforeMonth_eq,
    Day.next]
  split
  · dsimp only
    omega
  · next hend =>
      split
      · dsimp only
        rw [Nat.add_sub_cancel, hnext]
        omega
      · next hyear =>
          have htwelve : day.month = 12 := Nat.le_antisymm hday.month_le (Nat.not_lt.1 hyear)
          have hall : ((monthLengths (isLeap day.year)).take day.month).sum =
              yearLength day.year := by
            rw [htwelve]
            rfl
          dsimp only
          rw [yearStart_succ]
          change yearStart day.year + (yearLength day.year : ℤ) + 0 = _
          omega

/-- The count of the days begins with this one. -/
theorem ofNumber_zero : Day.ofNumber 0 = ⟨1970, 1, 1⟩ := by decide

/-- A day is followed by the next one. -/
theorem ofNumber_succ (number : ℤ) : Day.ofNumber (number + 1) = (Day.ofNumber number).next := by
  have hvalid := isValid_ofNumber number
  have hnext := number_next hvalid
  rw [number_ofNumber] at hnext
  rw [← hnext, ofNumber_number hvalid.next]

/-! ## Moments -/

section Moments

variable {millis later : ℤ} {day last bound : Day}

/-- A moment falls on a day: it is not before the start of the day, and the day is not over. -/
structure OnDay (millis : ℤ) (day : Day) : Prop where
  isValid : day.IsValid
  start_le : day.startMillis ≤ millis
  lt_end : millis < day.startMillis + millisPerDay

/-- Each moment falls on one day. -/
theorem onDay_iff : OnDay millis day ↔ Day.ofMillis millis = day := by
  have hnumber : Int.fdiv millis millisPerDay = millis / 86400000 :=
    Int.fdiv_eq_ediv_of_nonneg _ (by decide)
  rw [Day.ofMillis, hnumber]
  constructor
  · rintro ⟨hday, hstart, hend⟩
    rw [Day.startMillis, millisPerDay] at hstart hend
    have hplace : millis / 86400000 = day.number := by omega
    rw [hplace, ofNumber_number hday]
  · rintro rfl
    refine ⟨isValid_ofNumber _, ?_, ?_⟩
    · rw [Day.startMillis, number_ofNumber, millisPerDay]
      omega
    · rw [Day.startMillis, number_ofNumber, millisPerDay]
      omega

theorem onDay_ofMillis (millis : ℤ) : OnDay millis (Day.ofMillis millis) := onDay_iff.2 rfl

/-- A moment is on a day or after it if it is not before the start of the day. -/
theorem OnDay.le_date_iff (hday : OnDay millis day) (hbound : bound.IsValid) :
    bound.date ≤ day.date ↔ bound.startMillis ≤ millis := by
  obtain ⟨hvalid, hstart, hend⟩ := hday
  rw [date_le_date_iff hbound hvalid]
  rw [Day.startMillis, millisPerDay] at *
  omega

/-- A moment is on a day or before it if the day is not over. -/
theorem OnDay.date_le_iff (hday : OnDay millis day) (hbound : bound.IsValid) :
    day.date ≤ bound.date ↔ millis < bound.startMillis + millisPerDay := by
  obtain ⟨hvalid, hstart, hend⟩ := hday
  rw [date_le_date_iff hvalid hbound]
  rw [Day.startMillis, millisPerDay] at *
  omega

/-- Moments that follow each other fall on days that do. -/
theorem OnDay.date_le_date (hday : OnDay millis day) (hlast : OnDay later last)
    (hle : millis ≤ later) : day.date ≤ last.date :=
  (hlast.le_date_iff hday.isValid).2 (hday.start_le.trans hle)

/-- Dates in order have their months in order. -/
theorem monthKey_le_of_date_le (hdate : day.date ≤ last.date) :
    monthKey (day.year, day.month) ≤ monthKey (last.year, last.month) := by
  refine Prod.Lex.toLex_le_toLex.2 ?_
  rcases Prod.Lex.toLex_le_toLex.1 hdate with hyear | ⟨hyear, hrest⟩
  · exact .inl hyear
  · refine .inr ⟨hyear, ?_⟩
    rcases Prod.Lex.toLex_le_toLex.1 hrest with hmonth | ⟨hmonth, _⟩
    · exact hmonth.le
    · exact hmonth.le

end Moments

end Backtest.Calendar
