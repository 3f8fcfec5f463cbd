import DebtSurvey.Calendar.Moment

/-!
# Reading moments

The standard forms of dates and times, basic (`20230102T030405`) and extended
(`2023-01-02T03:04:05`), calendar dates and week dates. Any single character separates the date from
the time. A fraction of a second is cut to millionths, and an offset may be `Z`. Where the form is
ambiguous, a dash after a week starts the time when two digits follow.
-/

namespace DebtSurvey.Calendar.Moment

/-- The number of a fixed count of digits at the front, and the text after it. -/
def takeDigits? : Nat → Text → Option (Nat × Text)
  | 0, t => some (0, t)
  | count + 1, t =>
    match t with
    | c :: rest =>
      if c.isDigit then
        (takeDigits? count rest).map fun (n, after) => ((c.toNat - 48) * Nat.pow 10 count + n, after)
      else none
    | [] => none

/-- The character at a place; a null character stands for the end of the text. -/
def charAt (t : Text) (i : Nat) : Char := t[i]?.getD '\x00'

/-- How many characters the date takes in front of a time. -/
def dateWidth (t : Text) : Nat :=
  -- Seven characters can only be a basic week date without a day.
  if t.length = 7 then 7
  else if charAt t 4 = '-' then
    if charAt t 5 = 'W' then
      if charAt t 8 = '-' then
        if (charAt t 10).isDigit then 8 else 10
      else 8
    else 10
  else if charAt t 4 = 'W' then
    -- How many digits follow the week decides whether the first of them is the day.
    let digits := ((t.drop 7).takeWhile Char.isDigit).length
    let stop := 7 + digits
    if stop < 9 then stop else if stop % 2 = 0 then 7 else 8
  else 8

/-- The date at the front of a text, of the given width. -/
def takeDate? (width : Nat) (t : Text) : Option Date := do
  let (year, rest) ← takeDigits? 4 t
  let dashed := rest.head? = some '-'
  let rest := if dashed then rest.drop 1 else rest
  match rest with
  | 'W' :: rest =>
    let (week, rest) ← takeDigits? 2 rest
    if (if dashed then 8 else 7) < width then
      let rest ← if dashed then (if rest.head? = some '-' then some (rest.drop 1) else none)
        else some rest
      let (day, _) ← takeDigits? 1 rest
      Date.ofWeek? year week day
    else Date.ofWeek? year week 1
  | rest =>
    let (month, rest) ← takeDigits? 2 rest
    let rest ← if dashed then (if rest.head? = some '-' then some (rest.drop 1) else none)
      else some rest
    let (day, _) ← takeDigits? 2 rest
    return ⟨year, month, day⟩

/-- The parts of a clock reading, and whether text was left over at its end. -/
structure Clock where
  /-- Hour, minute and second, as far as they are given. -/
  parts : List Nat
  /-- Millionths of a second. -/
  micros : Nat
  /-- Whether text follows the reading. -/
  leftOver : Bool

/-- Seconds of a clock reading. -/
def Clock.seconds (c : Clock) : Nat :=
  (c.parts.getD 0 0 * 60 + c.parts.getD 1 0) * 60 + c.parts.getD 2 0

/-- A fraction of a second from the digits after its mark; `room` characters are left before the
offset. Digits beyond six are passed over. -/
def takeFraction? (parts : List Nat) (room : Nat) (t : Text) : Option Clock := do
  let width := min room 6
  let (n, rest) ← takeDigits? width t
  let rest := rest.dropWhile Char.isDigit
  let micros := if width = 0 then 0 else n * Nat.pow 10 (6 - width)
  return ⟨parts, micros, charAt rest 0 ≠ '\x00'⟩

/-- Read the parts of a clock that are still missing. `room` is the number of characters before the
offset, `colons` says whether colons stand between the parts, once that is known. One character of
ASCII may be left over before an offset. -/
def takeClockFrom? : Nat → List Nat → Option Bool → Nat → Text → Option Clock
  | 0, parts, _, room, t => takeFraction? parts room t
  | missing + 1, parts, colons, room, t => do
    let (part, rest) ← takeDigits? 2 t
    let parts := parts ++ [part]
    let next := charAt rest 0
    let colons := colons.getD (next = ':')
    -- Three characters or fewer leave no room for a separator and another part.
    if room ≤ 3 then if next.toNat < 128 then return ⟨parts, 0, next ≠ '\x00'⟩ else none
    else if colons && next = ':' then
      takeClockFrom? missing parts (some colons) (room - 3) (rest.drop 1)
    else if next = '.' ∨ next = ',' then takeFraction? parts (room - 3) (rest.drop 1)
    else if !colons then takeClockFrom? missing parts (some colons) (room - 2) rest
    else none

/-- A clock reading at the front of a text, with `room` characters before the offset. -/
def takeClock? (room : Nat) (t : Text) : Option Clock := takeClockFrom? 3 [] none room t

/-- Where the offset of a time starts; its length without one. -/
def offsetStart (t : Text) : Nat :=
  1 + ((t.drop 1).takeWhile fun c => c ≠ '+' ∧ c ≠ '-' ∧ c ≠ 'Z').length

/-- A time of day and its offset. -/
def takeTime? (t : Text) : Option (Clock × Option Int) := do
  let first := charAt t 0
  let start := if first = '+' ∨ first = '-' ∨ first = 'Z' then 0 else offsetStart t
  let clock ← takeClock? start t
  match t.drop start with
  | [] => if clock.leftOver then none else return (clock, none)
  | 'Z' :: rest => if charAt rest 0 ≠ '\x00' then none else return (clock, some 0)
  | sign :: rest =>
    let shift ← takeClock? rest.length rest
    if shift.leftOver then none
    else if shift.seconds = 0 then return (clock, some 0)
    else
      let size : Int := shift.seconds * 1000000 + shift.micros
      return (clock, some (if sign = '-' then -size else size))

/-- The moment that a text spells. -/
def parse? (t : Text) : Option Moment := do
  let width := dateWidth t
  let date ← takeDate? width t
  let (clock, offset) ←
    if width < t.length then takeTime? (t.drop (width + 1)) else some (⟨[], 0, false⟩, none)
  let m : Moment :=
    ⟨date, clock.parts.getD 0 0, clock.parts.getD 1 0, clock.parts.getD 2 0, clock.micros, offset⟩
  if m.isValid then some m else none

end DebtSurvey.Calendar.Moment
