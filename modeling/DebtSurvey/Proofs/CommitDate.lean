import DebtSurvey.Calendar.Reader
import DebtSurvey.Proofs.DayCount
import DebtSurvey.Proofs.Numeral
import DebtSurvey.Proofs.StaleAge

/-!
# The dates of commits

The version control program writes the date of a commit as the committer's clock showed it, and
behind it how far that clock was from universal time: `2023-01-02T03:04:05+01:00`. So one instant has
many spellings, and at some of them it is already the next day, or still the old year. Each spelling
is read as the instant that it was written for.

## Main results

* `Moment.takeDigits?_padLeft`: a numeral of a fixed width is read back.
* `Moment.takeDate?_dateText`, `Moment.takeTime?_clockText`: the halves of a spelling.
* `Moment.parse?_spelling`, `Moment.sinceEpoch_shownAt`: the whole of it, and how far from the epoch
  it is.
* `History.lastModified_of_answers`: the last commit of a file, from an answer with a spelling.
-/

namespace DebtSurvey.Calendar

namespace Moment

/-! ### Numerals of a fixed width -/

/-- One more digit, and the number that it belongs to. -/
theorem takeDigits?_succ {width n : Nat} {t rest : Text} {c : Char}
    (h : takeDigits? width t = some (n, c :: rest)) (hc : c.isDigit) :
    takeDigits? (width + 1) t = some (10 * n + (c.toNat - 48), rest) := by
  induction width generalizing t n with
  | zero =>
    obtain ⟨rfl, rfl⟩ := Prod.mk.inj (Option.some.inj h)
    simp [takeDigits?, hc]
  | succ width ih =>
    cases t with
    | nil => cases h
    | cons d t =>
      rw [takeDigits?] at h
      split at h
      · rename_i hd
        obtain ⟨⟨m, after⟩, hrest, hpair⟩ := Option.map_eq_some_iff.mp h
        obtain ⟨rfl, rfl⟩ := Prod.mk.inj hpair
        rw [takeDigits?, if_pos hd, ih hrest, Option.map_some]
        -- the digit in front counts ten times as much now
        simp only [Nat.pow_eq, pow_succ]
        congr 2
        ring
      · cases h

theorem isDigit_digitChar {n : Nat} (h : n < 10) : n.digitChar.isDigit :=
  Text.isDigit_of_mem_ofNat (n := n) (by simp [Text.ofNat, Nat.toDigits_of_lt_base h])

/-- A numeral with places to spare is that of all digits but the last, and the last digit. -/
theorem padLeft_ofNat_succ (width n : Nat) :
    Text.padLeft (width + 2) '0' (Text.ofNat n) =
      Text.padLeft (width + 1) '0' (Text.ofNat (n / 10)) ++ [(n % 10).digitChar] := by
  rcases Nat.lt_or_ge n 10 with hsmall | hlarge
  · -- a single digit has zeros only in front of it
    have hzero : Text.ofNat (n / 10) = ['0'] := by
      rw [Nat.div_eq_of_lt hsmall]
      rfl
    have hdigit : Text.ofNat n = [n.digitChar] := Nat.toDigits_of_lt_base hsmall
    rw [hzero, hdigit, Nat.mod_eq_of_lt hsmall]
    simp [Text.padLeft, ← List.replicate_succ']
  · have hdigits : Text.ofNat n = Text.ofNat (n / 10) ++ [(n % 10).digitChar] :=
      Nat.toDigits_of_base_le (by omega) hlarge
    rw [hdigits, Text.padLeft, Text.padLeft, List.length_append, List.length_singleton,
      Nat.succ_sub_succ, List.append_assoc]

/-- A numeral of one place is its digit. -/
theorem padLeft_one {n : Nat} (h : n < 10) :
    Text.padLeft 1 '0' (Text.ofNat n) = [n.digitChar] := by
  rw [Text.ofNat, Nat.toDigits_of_lt_base h]
  rfl

theorem length_padLeft_ofNat {w n : Nat} (h : n < 10 ^ (w + 1)) :
    (Text.padLeft (w + 1) '0' (Text.ofNat n)).length = w + 1 := by
  have hlength : (Text.ofNat n).length ≤ w + 1 :=
    (Nat.length_toDigits_le_iff (by omega) (by omega)).mpr h
  rw [Text.padLeft, List.length_append, List.length_replicate, Nat.sub_add_cancel hlength]

theorem isDigit_of_mem_padLeft {width n : Nat} {c : Char}
    (h : c ∈ Text.padLeft width '0' (Text.ofNat n)) : c.isDigit := by
  rcases List.mem_append.mp h with hfill | hdigit
  · rw [List.eq_of_mem_replicate hfill]
    decide
  · exact Text.isDigit_of_mem_ofNat hdigit

/-- A numeral of a fixed width is read back, and what follows it is left. -/
theorem takeDigits?_padLeft {w n : Nat} (h : n < 10 ^ (w + 1)) (rest : Text) :
    takeDigits? (w + 1) (Text.padLeft (w + 1) '0' (Text.ofNat n) ++ rest) =
      some (n, rest) := by
  induction w generalizing n rest with
  | zero =>
    have hsmall : n < 10 := by simpa using h
    rw [padLeft_one hsmall]
    simp [takeDigits?, isDigit_digitChar hsmall, Nat.toNat_digitChar_of_lt_ten hsmall]
  | succ w ih =>
    have hlast : n % 10 < 10 := Nat.mod_lt n (by omega)
    have hfront : n / 10 < 10 ^ (w + 1) := by
      rw [Nat.div_lt_iff_lt_mul (by omega), ← pow_succ]
      exact h
    have htaken := takeDigits?_succ (ih hfront ((n % 10).digitChar :: rest)) (isDigit_digitChar hlast)
    rw [Nat.toNat_digitChar_of_lt_ten hlast, Nat.add_sub_cancel_left, Nat.div_add_mod] at htaken
    rw [padLeft_ofNat_succ, List.append_assoc]
    exact htaken

/-- Two digits fill two places. -/
theorem length_twoDigits {n : Nat} (h : n < 100) : (twoDigits n).length = 2 :=
  length_padLeft_ofNat (w := 1) h

theorem takeDigits?_twoDigits {n : Nat} (h : n < 100) (rest : Text) :
    takeDigits? 2 (twoDigits n ++ rest) = some (n, rest) :=
  takeDigits?_padLeft (w := 1) h rest

theorem isDigit_of_mem_twoDigits {n : Nat} {c : Char} (h : c ∈ twoDigits n) : c.isDigit :=
  isDigit_of_mem_padLeft h

/-- Two digits start with a digit. -/
theorem exists_twoDigits_eq_cons {n : Nat} (h : n < 100) :
    ∃ c rest, twoDigits n = c :: rest ∧ c.isDigit := by
  have hlength := length_twoDigits h
  cases hdigits : twoDigits n with
  | nil => simp [hdigits] at hlength
  | cons c rest =>
    exact ⟨c, rest, rfl, isDigit_of_mem_twoDigits (hdigits ▸ List.mem_cons_self)⟩

/-! ### The date and the time of day -/

section Date

variable {d : Date}

theorem length_dateText (hyear : d.year < 10000) (hmonth : d.month < 100) (hday : d.day < 100) :
    (dateText d).length = 10 := by
  have hfour : (Text.padLeft 4 '0' (Text.ofNat d.year)).length = 4 :=
    length_padLeft_ofNat (w := 3) hyear
  simp [dateText, hfour, length_twoDigits hmonth, length_twoDigits hday]

/-- A date is recognised by the dash behind the year and the digit behind that. -/
theorem dateWidth_dateText (hyear : d.year < 10000) (hmonth : d.month < 100) (hday : d.day < 100)
    (rest : Text) : dateWidth (dateText d ++ rest) = 10 := by
  have hfour : (Text.padLeft 4 '0' (Text.ofNat d.year)).length = 4 :=
    length_padLeft_ofNat (w := 3) hyear
  have hlong : (dateText d ++ rest).length ≠ 7 := by
    rw [List.length_append, length_dateText hyear hmonth hday]
    omega
  obtain ⟨c, digits, hmonthText, hdigit⟩ := exists_twoDigits_eq_cons hmonth
  have htext : dateText d ++ rest = Text.padLeft 4 '0' (Text.ofNat d.year) ++
      '-' :: c :: (digits ++ '-' :: (twoDigits d.day ++ rest)) := by
    simp [dateText, hmonthText]
  have hdash : charAt (dateText d ++ rest) 4 = '-' := by
    rw [charAt, htext, List.getElem?_append_right hfour.le, hfour]
    rfl
  have hletter : charAt (dateText d ++ rest) 5 ≠ 'W' := by
    rw [charAt, htext, List.getElem?_append_right (by omega), hfour]
    rintro rfl
    exact absurd hdigit (by decide)
  rw [dateWidth, if_neg hlong, if_pos hdash, if_neg hletter]

/-- A date is read back. -/
theorem takeDate?_dateText (hyear : d.year < 10000) (hmonth : d.month < 100) (hday : d.day < 100)
    (width : Nat) (rest : Text) : takeDate? width (dateText d ++ rest) = some d := by
  have htext : dateText d ++ rest = Text.padLeft 4 '0' (Text.ofNat d.year) ++
      '-' :: (twoDigits d.month ++ '-' :: (twoDigits d.day ++ rest)) := by
    simp [dateText]
  have hyearRead := takeDigits?_padLeft (w := 3) hyear
    ('-' :: (twoDigits d.month ++ '-' :: (twoDigits d.day ++ rest)))
  have hmonthRead := takeDigits?_twoDigits hmonth ('-' :: (twoDigits d.day ++ rest))
  have hdayRead := takeDigits?_twoDigits hday rest
  rw [takeDate?, htext, hyearRead]
  simp only [Option.bind_eq_bind, Option.bind_some, List.head?_cons, if_true, List.drop_one,
    List.tail_cons]
  -- a month starts with a digit, so no week is meant
  split
  · rename_i after hweek
    obtain ⟨c, digits, hmonthText, hdigit⟩ := exists_twoDigits_eq_cons hmonth
    rw [hmonthText] at hweek
    obtain ⟨rfl, -⟩ := List.cons.inj hweek
    exact absurd hdigit (by decide)
  · rw [hmonthRead]
    simp [hdayRead]

/-- A date is written with digits and dashes. -/
theorem isDigit_or_eq_of_mem_dateText {c : Char} (h : c ∈ dateText d) : c.isDigit ∨ c = '-' := by
  simp only [dateText, List.mem_append, List.mem_cons] at h
  rcases h with (hdigit | rfl | hdigit) | rfl | hdigit
  · exact .inl (isDigit_of_mem_padLeft hdigit)
  · exact .inr rfl
  · exact .inl (isDigit_of_mem_twoDigits hdigit)
  · exact .inr rfl
  · exact .inl (isDigit_of_mem_twoDigits hdigit)

end Date

/-- The seconds of a day, as hours, minutes and seconds. -/
theorem clockText_eq (seconds : Nat) :
    clockText seconds 0 = twoDigits (seconds / 3600) ++
      ':' :: (twoDigits (seconds / 60 % 60) ++ ':' :: twoDigits (seconds % 60)) := by
  simp [clockText]

/-- Three parts with colons between them are read, and what follows them is left. -/
theorem takeClock?_clockText {seconds : Nat} (h : seconds < 86400) {next : Char}
    (hnext : next.toNat < 128) (rest : Text) :
    takeClock? 8 (clockText seconds 0 ++ next :: rest) =
      some ⟨[seconds / 3600, seconds / 60 % 60, seconds % 60], 0, next ≠ '\x00'⟩ := by
  have hhour := takeDigits?_twoDigits (n := seconds / 3600) (by omega)
    (':' :: (twoDigits (seconds / 60 % 60) ++ ':' :: (twoDigits (seconds % 60) ++ next :: rest)))
  have hminute := takeDigits?_twoDigits (n := seconds / 60 % 60) (by omega)
    (':' :: (twoDigits (seconds % 60) ++ next :: rest))
  have hsecond := takeDigits?_twoDigits (n := seconds % 60) (by omega) (next :: rest)
  simp only [takeClock?, clockText_eq, List.append_assoc, List.cons_append]
  simp [takeClockFrom?, hhour, hminute, hsecond, charAt, hnext]

end Moment

/-! ### Zones -/

/-- How far a clock is from universal time, as the version control program tells it. -/
inductive Zone where
  /-- Universal time. -/
  | utc
  /-- A clock that is ahead. -/
  | ahead (hours : Fin 24) (minutes : Fin 60)
  /-- A clock that is behind. -/
  | behind (hours : Fin 24) (minutes : Fin 60)

namespace Zone

/-- How many seconds a clock is ahead of universal time. -/
def seconds : Zone → Int
  | utc => 0
  | ahead hours minutes => ((hours.val * 60 + minutes.val) * 60 : Nat)
  | behind hours minutes => -((hours.val * 60 + minutes.val) * 60 : Nat)

/-- Hours and minutes of a zone. -/
def distance (hours : Fin 24) (minutes : Fin 60) : Text :=
  Moment.twoDigits hours ++ ':' :: Moment.twoDigits minutes

/-- A zone behind a time of day. -/
def text : Zone → Text
  | utc => ['Z']
  | ahead hours minutes => '+' :: distance hours minutes
  | behind hours minutes => '-' :: distance hours minutes

/-- A clock is less than a day from universal time. -/
theorem abs_seconds_lt (zone : Zone) : |zone.seconds| < 86400 := by
  rw [abs_lt]
  cases zone with
  | utc => decide
  | ahead hours minutes =>
    simp only [seconds]
    omega
  | behind hours minutes =>
    simp only [seconds]
    omega

theorem length_distance (hours : Fin 24) (minutes : Fin 60) :
    (distance hours minutes).length = 5 := by
  have hhours : (Moment.twoDigits hours).length = 2 := Moment.length_twoDigits (by omega)
  have hminutes : (Moment.twoDigits minutes).length = 2 := Moment.length_twoDigits (by omega)
  simp [distance, hhours, hminutes]

theorem isDigit_or_eq_of_mem_distance {hours : Fin 24} {minutes : Fin 60} {c : Char}
    (h : c ∈ distance hours minutes) : c.isDigit ∨ c = ':' := by
  simp only [distance, List.mem_append, List.mem_cons] at h
  rcases h with hdigit | rfl | hdigit
  · exact .inl (Moment.isDigit_of_mem_twoDigits hdigit)
  · exact .inr rfl
  · exact .inl (Moment.isDigit_of_mem_twoDigits hdigit)

/-- A zone is written with digits, colons, and a letter or a sign. -/
theorem isDigit_or_mem_of_mem_text {zone : Zone} {c : Char} (h : c ∈ zone.text) :
    c.isDigit ∨ c ∈ ['Z', '+', '-', ':'] := by
  have hdistance {hours : Fin 24} {minutes : Fin 60} (h : c ∈ distance hours minutes) :
      c.isDigit ∨ c ∈ ['Z', '+', '-', ':'] :=
    (isDigit_or_eq_of_mem_distance h).imp id fun hcolon => by simp [hcolon]
  cases zone with
  | utc => exact .inr (by simp [List.mem_singleton.mp h])
  | ahead hours minutes =>
    rcases List.mem_cons.mp h with rfl | h
    · exact .inr (by decide)
    · exact hdistance h
  | behind hours minutes =>
    rcases List.mem_cons.mp h with rfl | h
    · exact .inr (by decide)
    · exact hdistance h

end Zone

namespace Moment

/-- Two parts with a colon between them are read. -/
theorem takeClock?_distance (hours : Fin 24) (minutes : Fin 60) :
    takeClock? 5 (Zone.distance hours minutes) = some ⟨[hours, minutes], 0, false⟩ := by
  have hhours := takeDigits?_twoDigits (n := hours) (by omega) (':' :: twoDigits minutes)
  have hminutes := takeDigits?_twoDigits (n := minutes) (by omega) []
  rw [List.append_nil] at hminutes
  simp [Zone.distance, takeClock?, takeClockFrom?, hhours, hminutes, charAt]

/-- A time of day is written with digits and colons. -/
theorem isDigit_or_eq_of_mem_clockText {seconds : Nat} {c : Char} (h : c ∈ clockText seconds 0) :
    c.isDigit ∨ c = ':' := by
  rw [clockText_eq] at h
  simp only [List.mem_append, List.mem_cons] at h
  rcases h with hdigit | rfl | hdigit | rfl | hdigit
  · exact .inl (isDigit_of_mem_twoDigits hdigit)
  · exact .inr rfl
  · exact .inl (isDigit_of_mem_twoDigits hdigit)
  · exact .inr rfl
  · exact .inl (isDigit_of_mem_twoDigits hdigit)

/-- No sign and no letter is in a time of day. -/
theorem not_mark_of_mem_clockText {seconds : Nat} {c : Char} (h : c ∈ clockText seconds 0) :
    c ≠ '+' ∧ c ≠ '-' ∧ c ≠ 'Z' := by
  rcases isDigit_or_eq_of_mem_clockText h with hdigit | rfl
  · refine ⟨?_, ?_, ?_⟩ <;> (rintro rfl; exact absurd hdigit (by decide))
  · decide

theorem length_clockText {seconds : Nat} (h : seconds < 86400) :
    (clockText seconds 0).length = 8 := by
  have hhour : (twoDigits (seconds / 3600)).length = 2 := length_twoDigits (by omega)
  have hminute : (twoDigits (seconds / 60 % 60)).length = 2 := length_twoDigits (by omega)
  have hsecond : (twoDigits (seconds % 60)).length = 2 := length_twoDigits (by omega)
  simp [clockText_eq, hhour, hminute, hsecond]

/-- The characters that a zone may start with. -/
def IsMark (c : Char) : Prop := c = '+' ∨ c = '-' ∨ c = 'Z'

/-- A time of day ends where the zone starts. -/
theorem offsetStart_clockText {seconds : Nat} (h : seconds < 86400) {mark : Char}
    (hmark : IsMark mark) (rest : Text) :
    offsetStart (clockText seconds 0 ++ mark :: rest) = 8 := by
  have hlength := length_clockText h
  have hclock : ∀ c ∈ (clockText seconds 0).drop 1, (c ≠ '+' ∧ c ≠ '-' ∧ c ≠ 'Z') := fun c hc =>
    not_mark_of_mem_clockText (List.mem_of_mem_drop hc)
  have htaken : ((clockText seconds 0).drop 1 ++ mark :: rest).takeWhile
      (fun c => c ≠ '+' ∧ c ≠ '-' ∧ c ≠ 'Z') = (clockText seconds 0).drop 1 := by
    rw [List.takeWhile_append_of_pos fun c hc => decide_eq_true (hclock c hc),
      List.takeWhile_cons_of_neg, List.append_nil]
    rcases hmark with rfl | rfl | rfl <;> decide
  rw [offsetStart, List.drop_append_of_le_length (by omega), htaken, List.length_drop, hlength]

/-- A time of day in front of a zone is read, and the zone is left. -/
theorem takeTime?_front {seconds : Nat} (h : seconds < 86400) {mark : Char} (hmark : IsMark mark)
    (rest : Text) :
    ¬ IsMark (charAt (clockText seconds 0 ++ mark :: rest) 0) ∧
      takeClock? 8 (clockText seconds 0 ++ mark :: rest) =
        some ⟨[seconds / 3600, seconds / 60 % 60, seconds % 60], 0, true⟩ ∧
      (clockText seconds 0 ++ mark :: rest).drop 8 = mark :: rest := by
  obtain ⟨first, others, hclock⟩ : ∃ first others, clockText seconds 0 = first :: others :=
    List.exists_cons_of_ne_nil <| by
      rw [← List.length_pos_iff, length_clockText h]
      omega
  refine ⟨?_, ?_, List.drop_left' (length_clockText h)⟩
  · rw [hclock]
    simpa [IsMark] using not_mark_of_mem_clockText (hclock ▸ List.mem_cons_self)
  · rw [takeClock?_clockText h (by rcases hmark with rfl | rfl | rfl <;> decide)]
    rcases hmark with rfl | rfl | rfl <;> rfl

/-- A time of day with a signed zone is read back. -/
theorem takeTime?_sign {seconds : Nat} (h : seconds < 86400) {sign : Char}
    (hsign : sign = '+' ∨ sign = '-') (hours : Fin 24) (minutes : Fin 60) :
    takeTime? (clockText seconds 0 ++ sign :: Zone.distance hours minutes) =
      some (⟨[seconds / 3600, seconds / 60 % 60, seconds % 60], 0, true⟩,
        some ((if sign = '-' then -(((hours.val * 60 + minutes.val) * 60 : Nat) : Int)
          else ((hours.val * 60 + minutes.val) * 60 : Nat)) * 1000000)) := by
  have hlength := Zone.length_distance hours minutes
  have hshift := takeClock?_distance hours minutes
  generalize Zone.distance hours minutes = shift at hlength hshift ⊢
  rw [← hlength] at hshift
  have hmark : IsMark sign := hsign.elim .inl fun hdash => .inr (.inl hdash)
  obtain ⟨hfirst, hread, hdrop⟩ := takeTime?_front h hmark shift
  have hletter : sign ≠ 'Z' := by rcases hsign with rfl | rfl <;> decide
  rw [takeTime?]
  simp only [IsMark] at hfirst
  simp only [if_neg hfirst, offsetStart_clockText h hmark, hread, hdrop, Option.bind_eq_bind,
    Option.bind_some]
  have hseconds : (⟨[hours, minutes], 0, false⟩ : Clock).seconds =
    (hours.val * 60 + minutes.val) * 60 := rfl
  rw [hshift, Option.bind_some, if_neg Bool.false_ne_true, hseconds]
  generalize (hours.val * 60 + minutes.val) * 60 = shown
  split
  · -- a clock that shows universal time, whatever its sign
    rename_i hzero
    subst hzero
    split <;> rfl
  · rcases hsign with rfl | rfl <;> simp

/-- A time of day with its zone is read back. -/
theorem takeTime?_clockText {seconds : Nat} (h : seconds < 86400) (zone : Zone) :
    takeTime? (clockText seconds 0 ++ zone.text) =
      some (⟨[seconds / 3600, seconds / 60 % 60, seconds % 60], 0, true⟩,
        some (zone.seconds * 1000000)) := by
  cases zone with
  | utc =>
    have hmark : IsMark 'Z' := .inr (.inr rfl)
    obtain ⟨hfirst, hread, hdrop⟩ := takeTime?_front h hmark []
    simp only [IsMark] at hfirst
    rw [takeTime?, Zone.text]
    simp only [if_neg hfirst, offsetStart_clockText h hmark, hread, hdrop]
    rfl
  | ahead hours minutes => exact takeTime?_sign h (.inl rfl) hours minutes
  | behind hours minutes => exact takeTime?_sign h (.inr rfl) hours minutes

/-! ### Spellings -/

/-- An instant, in whole seconds since the epoch, as the version control program writes it for a
clock in a zone. -/
def spelling (instant : Int) (zone : Zone) : Text :=
  let shown := instant + zone.seconds
  dateText (dateAt (shown / 86400 + daysBeforeEpoch).toNat) ++
    'T' :: (clockText (shown % 86400).toNat 0 ++ zone.text)

/-- The date of an instant in universal time. -/
def dateOf (instant : Int) : Date := dateAt (instant / 86400 + daysBeforeEpoch).toNat

section Spelling

variable {instant : Int}

/-- What a clock shows at an instant, with its offset. -/
def shownAt (instant : Int) (zone : Zone) : Moment :=
  let shown := instant + zone.seconds
  let seconds := (shown % 86400).toNat
  ⟨dateAt (shown / 86400 + daysBeforeEpoch).toNat, seconds / 3600, seconds / 60 % 60, seconds % 60, 0,
    some (zone.seconds * 1000000)⟩

/-- A clock shows the date of universal time, or that of the day before or after it. -/
theorem year_shownAt_le (instant : Int) (zone : Zone) :
    (shownAt instant zone).date.year ≤ (dateOf instant).year + 1 := by
  have hzone := abs_lt.mp zone.abs_seconds_lt
  refine year_dateAt_le ?_ ?_
  · omega
  · omega

theorem isValid_shownAt (hyear : (dateOf instant).year < maxYear) (zone : Zone) :
    (shownAt instant zone).isValid := by
  have hdate : (shownAt instant zone).date.isValid :=
    (isReal_dateAt _).isValid ((year_shownAt_le instant zone).trans hyear)
  have hseconds : (((instant + zone.seconds) % 86400).toNat) < 86400 := by omega
  have hzone := abs_lt.mp zone.abs_seconds_lt
  simp only [isValid, Bool.and_eq_true, decide_eq_true_eq]
  refine ⟨⟨⟨⟨⟨hdate, ?_⟩, ?_⟩, ?_⟩, Nat.succ_pos _⟩, ?_⟩
  · simp only [shownAt]
    omega
  · exact Nat.mod_lt _ (by omega)
  · exact Nat.mod_lt _ (by omega)
  · rw [shownAt, Option.all_some, Bool.and_eq_true, decide_eq_true_eq, decide_eq_true_eq]
    simp only [microsPerDay]
    omega

/-- What a clock shows is the instant, less what the clock is ahead. -/
theorem sinceEpoch_shownAt (h : 0 ≤ instant) (zone : Zone) :
    (shownAt instant zone).sinceEpoch = instant * 1000000 := by
  have hzone := abs_lt.mp zone.abs_seconds_lt
  have hday : (shownAt instant zone).date.dayNumber = (instant + zone.seconds) / 86400 := by
    rw [shownAt, dayNumber_dateAt]
    simp only [daysBeforeEpoch]
    omega
  rw [sinceEpoch, hday]
  simp only [microsOfDay, shownAt, microsPerDay, Option.getD_some]
  omega

/-- A spelling is read as what the clock showed. -/
theorem parse?_spelling (hyear : (dateOf instant).year < maxYear) (zone : Zone) :
    parse? (spelling instant zone) = some (shownAt instant zone) := by
  have hvalid := isValid_shownAt hyear zone
  have hyearShown := (year_shownAt_le instant zone).trans hyear
  have hreal : (shownAt instant zone).date.IsReal := isReal_dateAt _
  have hmonth := hreal.month
  have hday := hreal.day.2.trans (daysInMonth_le _ _)
  have hfour : (shownAt instant zone).date.year < 10000 := Nat.lt_succ_of_le hyearShown
  have hspelling : spelling instant zone = dateText (shownAt instant zone).date ++
      'T' :: (clockText ((instant + zone.seconds) % 86400).toNat 0 ++ zone.text) := rfl
  have hdate := takeDate?_dateText hfour (by omega) (by omega) 10
    ('T' :: (clockText ((instant + zone.seconds) % 86400).toNat 0 ++ zone.text))
  have hwidth := dateWidth_dateText hfour (by omega) (by omega)
    ('T' :: (clockText ((instant + zone.seconds) % 86400).toNat 0 ++ zone.text))
  have hlength := length_dateText hfour (by omega : _ < 100) (by omega)
  have htime := takeTime?_clockText
    (by omega : ((instant + zone.seconds) % 86400).toNat < 86400) zone
  have hlong : 10 < (spelling instant zone).length := by
    rw [hspelling, List.length_append, hlength, List.length_cons]
    omega
  have hdrop : (spelling instant zone).drop 11 =
      clockText ((instant + zone.seconds) % 86400).toNat 0 ++ zone.text := by
    rw [hspelling, List.drop_append, hlength, List.drop_of_length_le (by omega)]
    rfl
  rw [← hspelling] at hdate hwidth
  rw [parse?]
  simp only [hwidth, hdate, Option.bind_eq_bind, Option.bind_some, if_pos hlong, hdrop, htime]
  exact if_pos hvalid

/-- Behind universal time it is still the day before. -/
example : spelling 8640000 (.behind 8 30) = "1970-04-10T15:30:00-08:30" := by decide +kernel

/-- No character of a spelling is blank. -/
theorem isBlank_of_mem_spelling {zone : Zone} {c : Char} (h : c ∈ spelling instant zone) :
    Text.isBlank c = false := by
  simp only [spelling, List.mem_append, List.mem_cons] at h
  rcases h with hdate | rfl | hclock | hzone
  · rcases isDigit_or_eq_of_mem_dateText hdate with hdigit | rfl
    · exact Text.isBlank_of_isDigit hdigit
    · rfl
  · rfl
  · rcases isDigit_or_eq_of_mem_clockText hclock with hdigit | rfl
    · exact Text.isBlank_of_isDigit hdigit
    · rfl
  · rcases Zone.isDigit_or_mem_of_mem_text hzone with hdigit | hmark
    · exact Text.isBlank_of_isDigit hdigit
    · simp only [List.mem_cons, List.not_mem_nil, or_false] at hmark
      rcases hmark with rfl | rfl | rfl | rfl <;> rfl

end Spelling

end Moment

end DebtSurvey.Calendar

namespace DebtSurvey

namespace Text

/-- Blanks at the end are dropped from a text that neither starts nor ends with one. -/
theorem trim_append {t blanks : Text} (hne : t ≠ [])
    (hfirst : isBlank (t.head hne) = false) (hlast : isBlank (t.getLast hne) = false)
    (hblanks : ∀ c ∈ blanks, isBlank c) : trim (t ++ blanks) = t := by
  have hstart : trimStart (t ++ blanks) = t ++ blanks := by
    cases t with
    | nil => exact absurd rfl hne
    | cons c rest =>
      rw [List.cons_append, trimStart, List.dropWhile_cons_of_neg]
      rw [List.head_cons] at hfirst
      simp [hfirst]
  have hback : t.reverse.dropWhile isBlank = t.reverse := by
    rw [← List.dropLast_append_getLast hne, List.reverse_append, List.reverse_singleton,
      List.singleton_append, List.dropWhile_cons_of_neg (by simp [hlast])]
  rw [trim, hstart, trimEnd, List.reverse_append,
    List.dropWhile_append_of_pos fun c hc => hblanks c (List.mem_reverse.mp hc), hback,
    List.reverse_reverse]

/-- A text is cut where a character first occurs. -/
theorem cut_append_cons {sep : Char} {t : Text} (h : sep ∉ t) (rest : Text) :
    cut sep (t ++ sep :: rest) = (t, rest) := by
  have hpiece : ∀ c ∈ t, decide (c ≠ sep) := fun c hc => by
    refine decide_eq_true ?_
    rintro rfl
    exact h hc
  rw [cut, List.takeWhile_append_of_pos hpiece, List.dropWhile_append_of_pos hpiece]
  simp

end Text

namespace History

open Calendar

/-- What the version control program answers about the last commit of a file: the commit, and the
date of the committer's clock. -/
def lastAnswer (commit : Text) (instant : Int) (zone : Zone) : Text :=
  commit ++ '\t' :: (Moment.spelling instant zone ++ ['\n'])

/-- There is a history, and it answers about the last commit of a file. -/
structure Answers (root file answer : Text) (w : World) : Prop where
  history : (isRepository root w).1 = true
  answer : (ask (lastArguments file) (isRepository root w).2).1 = .ok answer

/-- A name of a commit: it has no blanks. -/
structure IsCommit (commit : Text) : Prop where
  nonempty : commit ≠ []
  visible : ∀ c ∈ commit, Text.isBlank c = false

/-- The last commit of a file is at the instant that the answer spells. -/
theorem lastModified_of_answers {root file commit : Text} {instant : Int} {zone : Zone} {w : World}
    (hcommit : IsCommit commit) (hyear : (Moment.dateOf instant).year < maxYear)
    (hanswers : Answers root file (lastAnswer commit instant zone) w) :
    (lastModified root file w).1 = some (commit, Moment.shownAt instant zone) := by
  obtain ⟨hne, hvisible⟩ := hcommit
  obtain ⟨hhistory, hanswer⟩ := hanswers
  have hspelling : Moment.spelling instant zone ≠ [] := by simp [Moment.spelling]
  have hdate : Text.trim (Moment.spelling instant zone) = Moment.spelling instant zone := by
    have hfirst := Moment.isBlank_of_mem_spelling (List.head_mem hspelling)
    have hlast := Moment.isBlank_of_mem_spelling (List.getLast_mem hspelling)
    have hnone : ∀ c ∈ ([] : Text), Text.isBlank c := nofun
    simpa using Text.trim_append hspelling hfirst hlast hnone
  have hline : Text.trim (lastAnswer commit instant zone) =
      commit ++ '\t' :: Moment.spelling instant zone := by
    rw [lastAnswer, ← List.cons_append, ← List.append_assoc]
    refine Text.trim_append (by simp) ?_ ?_ (List.all_eq_true.mp rfl)
    · rw [List.head_append_of_ne_nil hne]
      exact hvisible _ (List.head_mem hne)
    · rw [List.getLast_append_of_ne_nil _ (List.cons_ne_nil _ _), List.getLast_cons hspelling]
      exact Moment.isBlank_of_mem_spelling (List.getLast_mem hspelling)
  have htab : '\t' ∉ commit := fun h => absurd (hvisible _ h) (by decide)
  have hcut := Text.cut_append_cons htab (Moment.spelling instant zone)
  have hnonempty : (commit ++ '\t' :: Moment.spelling instant zone).isEmpty = false := by
    simp
  have hparse := Moment.parse?_spelling hyear zone
  unfold lastModified
  rcases hasked : isRepository root w with ⟨known, v⟩
  rw [hasked] at hhistory hanswer
  obtain rfl : known = true := hhistory
  rcases hout : ask (lastArguments file) v with ⟨result, u⟩
  rw [hout] at hanswer
  obtain rfl : result = _ := hanswer
  simp only [hout, hline, hnonempty, hcut, hdate, hparse]
  rfl

end History

end DebtSurvey
