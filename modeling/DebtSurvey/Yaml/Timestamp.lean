import DebtSurvey.Calendar.Moment
import DebtSurvey.Yaml.Error

/-!
# Dates in a document

A date has a year of four digits, a month and a day. It may be followed by a time of day with a
fraction of a second, and a time by the offset of its clock. How a date is written decides whether a
plain scalar is one; whether the calendar has it is another question.
-/

namespace DebtSurvey.Yaml.Timestamp

/-- The offset of a clock as it is written. -/
inductive Zone where
  /-- None is given. -/
  | missing
  /-- Universal time. -/
  | universal
  /-- Hours and minutes ahead of universal time, or behind it. -/
  | offset (isBehind : Bool) (hours minutes : Nat)
deriving DecidableEq, Repr

/-- A time of day as it is written. -/
structure Clock where
  /-- The hour. -/
  hour : Nat
  /-- The minute. -/
  minute : Nat
  /-- The second. -/
  second : Nat
  /-- The digits of the fraction of a second. -/
  fraction : Text
  /-- The offset of the clock. -/
  zone : Zone
deriving DecidableEq, Repr

/-- A date as it is written, perhaps with a time of day. -/
structure Parts where
  /-- The year. -/
  year : Nat
  /-- The month. -/
  month : Nat
  /-- The day. -/
  day : Nat
  /-- The time of day. -/
  clock : Option Clock
deriving DecidableEq, Repr

/-- The number that between `least` and `most` digits at the front spell, and the text after them. -/
def takeNumber? (least most : Nat) (t : Text) : Option (Nat × Text) :=
  let digits := (t.take most).takeWhile Char.isDigit
  if digits.length < least then none
  else some (digits.foldl (fun n d => 10 * n + (d.toNat - 48)) 0, t.drop digits.length)

/-- Drop a character at the front. -/
def takeChar? (c : Char) (t : Text) : Option Text :=
  match t with
  | d :: rest => if d = c then some rest else none
  | [] => none

/-- Drop what stands between a date and a time: a letter or blanks. -/
def takeSeparator? (t : Text) : Option Text :=
  match t with
  | 'T' :: rest => some rest
  | 't' :: rest => some rest
  | _ =>
    let rest := t.dropWhile fun c => c == ' ' || c == '\t'
    if rest.length < t.length then some rest else none

/-- The offset that a text is, blanks in front of it allowed. -/
def zone? (t : Text) : Option Zone :=
  if t.isEmpty then some .missing
  else
    match t.dropWhile fun c => c == ' ' || c == '\t' with
    | ['Z'] => some .universal
    | sign :: rest => do
      if sign ≠ '+' ∧ sign ≠ '-' then none
      let (hours, rest) ← takeNumber? 1 2 rest
      if rest.isEmpty then return .offset (sign == '-') hours 0
      let (minutes, rest) ← takeNumber? 2 2 (← takeChar? ':' rest)
      if rest.isEmpty then return .offset (sign == '-') hours minutes else none
    | [] => none

/-- The time of day that a text is. -/
def clock? (t : Text) : Option Clock := do
  let (hour, rest) ← takeNumber? 1 2 t
  let (minute, rest) ← takeNumber? 2 2 (← takeChar? ':' rest)
  let (second, rest) ← takeNumber? 2 2 (← takeChar? ':' rest)
  let (fraction, rest) := match rest with
    | '.' :: rest => (rest.takeWhile Char.isDigit, rest.dropWhile Char.isDigit)
    | _ => ([], rest)
  return ⟨hour, minute, second, fraction, ← zone? rest⟩

/-- The date that a text is, perhaps with a time of day. -/
def parse? (t : Text) : Option Parts := do
  let (year, rest) ← takeNumber? 4 4 t
  let (month, rest) ← takeNumber? 1 2 (← takeChar? '-' rest)
  let (day, rest) ← takeNumber? 1 2 (← takeChar? '-' rest)
  if rest.isEmpty then return ⟨year, month, day, none⟩
  return ⟨year, month, day, some (← clock? (← takeSeparator? rest))⟩

/-- Whether a plain scalar is a date: without a time it must have two digits for month and day. -/
def isTimestamp (t : Text) : Bool :=
  match parse? t with
  | some parts => parts.clock.isSome || t.length == 10
  | none => false

/-- Millionths of a second from the digits of a fraction, cut after the sixth. -/
def micros (fraction : Text) : Nat :=
  let digits := fraction.take 6
  digits.foldl (fun n d => 10 * n + (d.toNat - 48)) 0 * Nat.pow 10 (6 - digits.length)

/-- The offset of a clock in millionths of a second. -/
def Zone.micros? : Zone → Option Int
  | .missing => none
  | .universal => some 0
  | .offset isBehind hours minutes =>
    let micros : Int := (hours * 60 + minutes) * 60 * 1000000
    some (if isBehind then -micros else micros)

/-- The date or moment that is written, if calendar and clock have it. -/
def Parts.value? (p : Parts) : Option (Calendar.Date ⊕ Calendar.Moment) :=
  let date : Calendar.Date := ⟨p.year, p.month, p.day⟩
  match p.clock with
  | none => if date.isValid then some (.inl date) else none
  | some c =>
    let moment : Calendar.Moment :=
      ⟨date, c.hour, c.minute, c.second, micros c.fraction, c.zone.micros?⟩
    if moment.isValid then some (.inr moment) else none

end DebtSurvey.Yaml.Timestamp
