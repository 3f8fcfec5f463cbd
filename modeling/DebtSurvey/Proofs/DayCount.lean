import DebtSurvey.Calendar.Date
import Mathlib.Data.Nat.ModEq
import Mathlib.Logic.Function.Iterate
import Mathlib.Tactic.SplitIfs

/-!
# Days one after the other

A date corresponds to its day number by a sum over years and months. Here the calendar goes from each
date to the one after it, as on a wall, and the day number counts those steps: no rule for leap
years, short months or the turn of a year loses a day or counts one twice.

## Main results

* `Date.dayNumber_next`: the day after a date has the next day number.
* `Date.dayNumber_iterate_next`: so many days later the day number is so much larger.
* `isReal_dateAt`, `dayNumber_dateAt`: the dates that are reached day by day, and their day numbers.
-/

namespace DebtSurvey.Calendar

/-! ### Months and years -/

theorem daysInMonth_pos (year month : Nat) : 0 < daysInMonth year month := by
  unfold daysInMonth
  split_ifs <;> omega

/-- The days before a month are those before the month in front of it, and its own. -/
theorem daysBeforeMonth_succ (year : Nat) {month : Nat} (h : 1 ≤ month) :
    daysBeforeMonth year (month + 1) = daysBeforeMonth year month + daysInMonth year month := by
  obtain ⟨m, rfl⟩ := Nat.exists_eq_add_of_le' h
  simp only [daysBeforeMonth, Nat.add_sub_cancel, List.range_succ, List.foldl_append,
    List.foldl_cons, List.foldl_nil]

/-- The months of a year have all of its days. -/
theorem daysBeforeMonth_thirteen (year : Nat) :
    daysBeforeMonth year 13 = if isLeap year then 366 else 365 := by
  have hmonths : List.range 12 = [0, 1, 2, 3, 4, 5, 6, 7, 8, 9, 10, 11] := rfl
  simp only [daysBeforeMonth, hmonths, List.foldl_cons, List.foldl_nil, daysInMonth]
  cases isLeap year <;> rfl

/-- The days before a year are those before the year in front of it, and its own. -/
theorem daysBeforeYear_succ {year : Nat} (h : 1 ≤ year) :
    daysBeforeYear (year + 1) = daysBeforeYear year + if isLeap year then 366 else 365 := by
  obtain ⟨y, rfl⟩ := Nat.exists_eq_add_of_le' h
  have hleap : isLeap (y + 1) = true ↔ 4 ∣ y + 1 ∧ (¬ 100 ∣ y + 1 ∨ 400 ∣ y + 1) := by
    simp [isLeap, Nat.dvd_iff_mod_eq_zero]
  have hhundred : 100 ∣ y + 1 → 4 ∣ y + 1 := (Nat.dvd_trans (by decide) ·)
  have hfour : 400 ∣ y + 1 → 100 ∣ y + 1 := (Nat.dvd_trans (by decide) ·)
  have hcenturies : y / 100 ≤ y / 4 := Nat.div_le_div_left (by decide) (by decide)
  -- each of the three quotients grows by one where its divisor is reached
  simp only [daysBeforeYear, Nat.add_sub_cancel, Nat.succ_div, hleap]
  by_cases h4 : 4 ∣ y + 1 <;> by_cases h100 : 100 ∣ y + 1 <;> by_cases h400 : 400 ∣ y + 1 <;>
    simp_all <;> omega

namespace Date

/-! ### The day after -/

/-- A date that a calendar without an end has. -/
structure IsReal (d : Date) : Prop where
  year : 1 ≤ d.year
  month : 1 ≤ d.month ∧ d.month ≤ 12
  day : 1 ≤ d.day ∧ d.day ≤ daysInMonth d.year d.month

/-- The day after a date. -/
def next (d : Date) : Date :=
  if d.day < daysInMonth d.year d.month then { d with day := d.day + 1 }
  else if d.month < 12 then ⟨d.year, d.month + 1, 1⟩
  else ⟨d.year + 1, 1, 1⟩

variable {d : Date}

theorem IsReal.next (h : d.IsReal) : d.next.IsReal := by
  have hmonth := h.month
  unfold Date.next
  split
  · rename_i hday
    exact ⟨h.year, hmonth, Nat.succ_pos _, hday⟩
  · split
    · exact ⟨h.year, ⟨Nat.succ_pos _, by assumption⟩, Nat.le_refl 1, daysInMonth_pos _ _⟩
    · exact ⟨Nat.succ_pos _, ⟨Nat.le_refl 1, by simp⟩, Nat.le_refl 1, daysInMonth_pos _ _⟩

/-- The day after a date has the next day number. -/
theorem dayNumber_next (h : d.IsReal) : d.next.dayNumber = d.dayNumber + 1 := by
  have hmonth := h.month
  have hday := h.day
  have hordinal : d.next.ordinal = d.ordinal + 1 := by
    unfold Date.next
    split
    · simp only [ordinal]
      omega
    · -- the last day of a month, and maybe of a year
      have hlast : d.day = daysInMonth d.year d.month := by omega
      have hmonths := daysBeforeMonth_succ d.year hmonth.1
      split
      · simp only [ordinal]
        omega
      · have hdecember : d.month = 12 := by omega
        have hyear := daysBeforeYear_succ h.year
        have hfirst : daysBeforeMonth (d.year + 1) 1 = 0 := rfl
        rw [hdecember, daysBeforeMonth_thirteen] at hmonths
        rw [hdecember] at hlast
        simp only [ordinal, hdecember, hfirst]
        omega
  rw [dayNumber, dayNumber, hordinal]
  omega

theorem isReal_iterate_next (h : d.IsReal) (n : Nat) : (Date.next^[n] d).IsReal := by
  induction n with
  | zero => exact h
  | succ n ih =>
    rw [Function.iterate_succ_apply']
    exact ih.next

/-- So many days later the day number is so much larger. -/
theorem dayNumber_iterate_next (h : d.IsReal) (n : Nat) :
    (Date.next^[n] d).dayNumber = d.dayNumber + n := by
  induction n with
  | zero => exact (Int.add_zero _).symm
  | succ n ih =>
    rw [Function.iterate_succ_apply', dayNumber_next (isReal_iterate_next h n), ih]
    omega

/-- The day after a date is in the same year or the one after it. -/
theorem year_next (d : Date) : d.year ≤ d.next.year ∧ d.next.year ≤ d.year + 1 := by
  unfold Date.next
  split
  · exact ⟨Nat.le_refl _, Nat.le_succ _⟩
  · split
    · exact ⟨Nat.le_refl _, Nat.le_succ _⟩
    · exact ⟨Nat.le_succ _, Nat.le_refl _⟩

theorem IsReal.isValid (h : d.IsReal) (hyear : d.year ≤ maxYear) : d.isValid := by
  have hmonth := h.month
  have hday := h.day
  simp only [Date.isValid, Bool.and_eq_true, decide_eq_true_eq]
  exact ⟨⟨⟨⟨⟨h.year, hyear⟩, hmonth.1⟩, hmonth.2⟩, hday.1⟩, hday.2⟩

end Date

/-! ### Days from a fixed date on -/

/-- The number of days of the year before the epoch. -/
def daysBeforeEpoch : Nat := 365

/-- The date so many days after the beginning of the year before the epoch: at the epoch itself a
clock behind universal time still shows the last day of that year. -/
def dateAt (n : Nat) : Date := Date.next^[n] ⟨1969, 1, 1⟩

theorem dateAt_succ (n : Nat) : dateAt (n + 1) = (dateAt n).next :=
  Function.iterate_succ_apply' Date.next n _

theorem isReal_firstDate : (⟨1969, 1, 1⟩ : Date).IsReal := ⟨by decide, by decide, by decide⟩

theorem isReal_dateAt (n : Nat) : (dateAt n).IsReal := Date.isReal_iterate_next isReal_firstDate n

/-- The day number counts the days from the epoch. -/
theorem dayNumber_dateAt (n : Nat) : (dateAt n).dayNumber = (n : Int) - daysBeforeEpoch := by
  have hfirst : (⟨1969, 1, 1⟩ : Date).dayNumber = -daysBeforeEpoch := rfl
  rw [dateAt, Date.dayNumber_iterate_next isReal_firstDate, hfirst]
  omega

/-- The epoch is where the days are counted from. -/
example : dateAt daysBeforeEpoch = ⟨1970, 1, 1⟩ := by decide +kernel

/-- Neighbouring days are in the same year or in neighbouring ones. -/
theorem year_dateAt_le {n m : Nat} (h : n ≤ m + 1) (hm : m ≤ n + 1) :
    (dateAt n).year ≤ (dateAt m).year + 1 := by
  rcases Nat.lt_trichotomy n m with hless | rfl | hmore
  · obtain rfl : m = n + 1 := by omega
    rw [dateAt_succ]
    exact Nat.le_succ_of_le (dateAt n).year_next.1
  · exact Nat.le_succ _
  · obtain rfl : n = m + 1 := by omega
    rw [dateAt_succ]
    exact (dateAt m).year_next.2

end DebtSurvey.Calendar
