import DebtSurvey.Number.Basic

/-!
# Ages

The age of a moment is the number of whole days from it to a clock, both in milliseconds since the
epoch; a moment after the clock has a negative age.
-/

namespace DebtSurvey.Age

/-- Milliseconds of a day. -/
def millisPerDay : Nat := 1000 * 60 * 60 * 24

/-- Whole days from a moment to a clock, toward minus infinity. -/
def days (moment clock : Int) : Int := (clock - moment).fdiv millisPerDay

/-- Whole days between moments that may be floating point numbers. -/
def between (moment clock : Number) : Except NumberError Int := do
  ((← clock.sub moment).floorDiv millisPerDay).toInt

end DebtSurvey.Age
