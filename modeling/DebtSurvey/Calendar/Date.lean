/-!
# Calendar dates

Dates of the Gregorian calendar from year 1 to year 9999. A date corresponds to its day number,
which counts from the first of January 1970; weeks follow the rule that the first week of a year is
the one with its first Thursday.
-/

namespace DebtSurvey.Calendar

/-- Years with a 29th of February. -/
def isLeap (year : Nat) : Bool := year % 4 == 0 && (year % 100 != 0 || year % 400 == 0)

/-- The number of days in a month. -/
def daysInMonth (year month : Nat) : Nat :=
  if month = 2 then if isLeap year then 29 else 28
  else if month = 4 ∨ month = 6 ∨ month = 9 ∨ month = 11 then 30
  else 31

/-- A date. -/
structure Date where
  /-- The year. -/
  year : Nat
  /-- The month, counted from one. -/
  month : Nat
  /-- The day of the month, counted from one. -/
  day : Nat
deriving DecidableEq, Repr, Inhabited

/-- The last year of the calendar. -/
def maxYear : Nat := 9999

/-- A date that the calendar has. -/
def Date.isValid (d : Date) : Bool :=
  1 ≤ d.year && d.year ≤ maxYear && 1 ≤ d.month && d.month ≤ 12 && 1 ≤ d.day &&
    d.day ≤ daysInMonth d.year d.month

/-- Days from the first day of year 1 to the first day of a year. -/
def daysBeforeYear (year : Nat) : Nat :=
  let y := year - 1
  365 * y + y / 4 - y / 100 + y / 400

/-- Days from the first day of a year to the first day of a month. -/
def daysBeforeMonth (year month : Nat) : Nat :=
  (List.range (month - 1)).foldl (fun days m => days + daysInMonth year (m + 1)) 0

/-- Days from the first day of year 1 to the first of January 1970. -/
def epochDay : Nat := 719162

/-- Days from the first day of year 1 to a date. -/
def Date.ordinal (d : Date) : Nat :=
  daysBeforeYear d.year + daysBeforeMonth d.year d.month + (d.day - 1)

/-- The day number of a date. -/
def Date.dayNumber (d : Date) : Int := (d.ordinal : Int) - epochDay

/-- The month and day of a day within a year; the first argument bounds the months looked at. -/
def monthAndDay (year : Nat) : Nat → Nat → Nat → Nat × Nat
  | 0, month, rest => (month, rest + 1)
  | fuel + 1, month, rest =>
    if rest < daysInMonth year month then (month, rest + 1)
    else monthAndDay year fuel (month + 1) (rest - daysInMonth year month)

/-- The date that is a number of days after the first day of year 1. -/
def Date.ofOrdinal (n : Nat) : Date :=
  let guess := n / 366 + 1
  let year := yearFrom 40 guess
  let (month, day) := monthAndDay year 11 1 (n - daysBeforeYear year)
  ⟨year, month, day⟩
where
  /-- The last year at or after a guess whose first day is not after the day. -/
  yearFrom : Nat → Nat → Nat
    | 0, year => year
    | fuel + 1, year => if daysBeforeYear (year + 1) ≤ n then yearFrom fuel (year + 1) else year

/-- The day of the week, zero for Monday. -/
def Date.weekday (d : Date) : Nat := d.ordinal % 7

/-- Days from the first day of year 1 to the Monday of the first week of a year; negative where that
week starts before year 1. -/
def firstMonday (year : Nat) : Int :=
  let first := daysBeforeYear year
  let weekday := first % 7
  let monday : Int := (first : Int) - weekday
  if 3 < weekday then monday + 7 else monday

/-- The number of weeks of a year. -/
def weeksOf (year : Nat) : Nat :=
  let weekday := daysBeforeYear year % 7
  if weekday = 3 ∨ (weekday = 2 ∧ isLeap year) then 53 else 52

/-- The date of a weekday, counted from one, in a week of a year. -/
def Date.ofWeek? (year week day : Nat) : Option Date :=
  if 1 ≤ year ∧ year ≤ maxYear ∧ 1 ≤ week ∧ week ≤ weeksOf year ∧ 1 ≤ day ∧ day ≤ 7 then
    some (Date.ofOrdinal (firstMonday year + (week - 1) * 7 + (day - 1)).toNat)
  else none

end DebtSurvey.Calendar
