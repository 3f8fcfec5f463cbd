import DebtSurvey.Calendar.Date
import DebtSurvey.Text.Basic

/-!
# Moments

A moment is a date and a time of day, with the offset of its clock from universal time where that is
known. Two spellings of one moment at different offsets have the same distance from the epoch.
-/

namespace DebtSurvey.Calendar

/-- A date and time of day. -/
structure Moment where
  /-- The date. -/
  date : Date
  /-- The hour. -/
  hour : Nat
  /-- The minute. -/
  minute : Nat
  /-- The second. -/
  second : Nat
  /-- The part of a second, in millionths. -/
  micros : Nat
  /-- How far the clock is ahead of universal time, in millionths of a second. -/
  offset : Option Int
deriving DecidableEq, Repr, Inhabited

namespace Moment

/-- Millionths of a second in a day. -/
def microsPerDay : Int := 86400 * 1000000

/-- A moment that the calendar and the clock have. An offset is less than a day. -/
def isValid (m : Moment) : Bool :=
  m.date.isValid && m.hour < 24 && m.minute < 60 && m.second < 60 && m.micros < 1000000 &&
    m.offset.all fun o => -microsPerDay < o && o < microsPerDay

/-- Millionths of a second since midnight. -/
def microsOfDay (m : Moment) : Int :=
  ((m.hour * 60 + m.minute) * 60 + m.second) * 1000000 + m.micros

/-- Millionths of a second from the epoch; without an offset the clock is taken to show universal
time. -/
def sinceEpoch (m : Moment) : Int :=
  m.date.dayNumber * microsPerDay + m.microsOfDay - m.offset.getD 0

/-- Two digits. -/
def twoDigits (n : Nat) : Text := Text.padLeft 2 '0' (Text.ofNat n)

/-- A time of day, with its millionths when there are any. -/
def clockText (seconds micros : Nat) : Text :=
  twoDigits (seconds / 3600) ++ ':' :: twoDigits (seconds / 60 % 60) ++
    ':' :: twoDigits (seconds % 60) ++
    if micros = 0 then [] else '.' :: Text.padLeft 6 '0' (Text.ofNat micros)

/-- An offset, with its seconds when there are any. -/
def offsetText (offset : Int) : Text :=
  let sign := if offset < 0 then '-' else '+'
  let seconds := offset.natAbs / 1000000
  let micros := offset.natAbs % 1000000
  let text := clockText seconds micros
  sign :: if seconds % 60 = 0 ∧ micros = 0 then text.take 5 else text

/-- A date as year, month and day. -/
def dateText (d : Date) : Text :=
  Text.padLeft 4 '0' (Text.ofNat d.year) ++ '-' :: twoDigits d.month ++ '-' :: twoDigits d.day

/-- The standard form of a moment. -/
def render (m : Moment) : Text :=
  dateText m.date ++ 'T' :: clockText ((m.hour * 60 + m.minute) * 60 + m.second) m.micros ++
    (m.offset.map offsetText).getD []

end Moment

end DebtSurvey.Calendar
