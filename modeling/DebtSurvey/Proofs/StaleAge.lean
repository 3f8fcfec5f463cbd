import DebtSurvey.Analysis.Staleness
import DebtSurvey.Proofs.Rounding

/-!
# Ages of files

The last commit of a file has a date that the calendar has, whatever the version control program
says. Such a date is so near to the epoch that its milliseconds are a finite number, and one of the
exact range of floating point.

## Main results

* `Calendar.Moment.abs_sinceEpoch_le`: how far a moment of the calendar is from the epoch.
* `History.isValid_of_lastModified`: the last commit of a file is at a moment of the calendar.
* `Staleness.within_millis`: how many milliseconds that can be.
-/

namespace DebtSurvey

namespace Calendar

/-- No month has more than 31 days. -/
theorem daysInMonth_le (year month : Nat) : daysInMonth year month ≤ 31 := by
  unfold daysInMonth
  split_ifs <;> omega

/-- The days before a month, none of which is too long. -/
theorem daysBeforeMonth_le (year month : Nat) : daysBeforeMonth year month ≤ 31 * (month - 1) := by
  unfold daysBeforeMonth
  induction month - 1 with
  | zero => simp
  | succ n ih =>
    rw [List.range_succ, List.foldl_append, List.foldl_cons, List.foldl_nil]
    have hmonth := daysInMonth_le year (n + 1)
    omega

/-- A date of the calendar is less than four million days after its beginning. -/
theorem Date.ordinal_lt {d : Date} (h : d.isValid) : d.ordinal < 4000000 := by
  simp only [Date.isValid, Bool.and_eq_true, decide_eq_true_eq] at h
  have hyear : d.year ≤ 9999 := h.1.1.1.1.2
  -- the bound is generous: 9999 years of 366 days, a year of months, and a month of days
  have hmonths := daysBeforeMonth_le d.year d.month
  have hdays := daysInMonth_le d.year d.month
  simp only [Date.ordinal, daysBeforeYear]
  omega

/-- A moment of the calendar is so many millionths of a second from the epoch at most. -/
theorem Moment.abs_sinceEpoch_le {m : Moment} (h : m.isValid) : |m.sinceEpoch| ≤ 2 ^ 59 := by
  simp only [Moment.isValid, Bool.and_eq_true, decide_eq_true_eq] at h
  obtain ⟨⟨⟨⟨⟨hdate, hhour⟩, hminute⟩, hsecond⟩, hmicros⟩, hoffset⟩ := h
  have hordinal := Date.ordinal_lt hdate
  -- the offset of a clock moves a moment by less than a day
  have hshift : -microsPerDay < m.offset.getD 0 ∧ m.offset.getD 0 < microsPerDay := by
    cases hm : m.offset with
    | none => decide
    | some o => simpa [hm] using hoffset
  simp only [microsPerDay] at hshift
  rw [abs_le]
  simp only [Moment.sinceEpoch, Date.dayNumber, Moment.microsOfDay, microsPerDay, epochDay]
  omega

/-- What is read as a moment is a moment of the calendar. -/
theorem Moment.isValid_of_parse? {t : Text} {m : Moment} (h : Moment.parse? t = some m) :
    m.isValid := by
  have hchecked (n : Moment) (hn : (if n.isValid then some n else none) = some m) : m.isValid := by
    split at hn
    · rename_i hvalid
      rwa [← Option.some.inj hn]
    · cases hn
  obtain ⟨date, -, htime⟩ := Option.bind_eq_some_iff.mp h
  -- with and without a time of day the check comes last
  split at htime
  · obtain ⟨time, -, hmoment⟩ := Option.bind_eq_some_iff.mp htime
    exact hchecked _ hmoment
  · obtain ⟨time, -, hmoment⟩ := Option.bind_eq_some_iff.mp htime
    exact hchecked _ hmoment

end Calendar

/-- The last commit of a file is at a moment of the calendar. -/
theorem History.isValid_of_lastModified {root file commit : Text} {moment : Calendar.Moment}
    {w v : World} (h : lastModified root file w = (some (commit, moment), v)) : moment.isValid := by
  unfold lastModified at h
  split at h
  · cases h
  · split at h
    · cases h
    · simp only at h
      split at h
      · cases h
      · split at h
        · rename_i hparse
          obtain ⟨hsome, -⟩ := Prod.mk.inj h
          obtain ⟨-, rfl⟩ := Prod.mk.inj (Option.some.inj hsome)
          exact Calendar.Moment.isValid_of_parse? hparse
        · cases h

namespace Staleness

open Binary64

/-- The milliseconds of a moment of the calendar are finite, and in the exact range of floating point.
-/
theorem within_millis {moment : Calendar.Moment} (h : moment.isValid) :
    Within 53 (millis moment) := by
  have hseconds : Within 41 (ofRat (mkRat moment.sinceEpoch 1000000)) := by
    have hmicros : |(moment.sinceEpoch : ℚ)| ≤ 2 ^ 59 := by
      exact_mod_cast Calendar.Moment.abs_sinceEpoch_le h
    have hmillion : |((1000000 : Int) : ℚ)| = 1000000 := by norm_num
    refine within_ofRat ?_ (by omega)
    rw [Rat.mkRat_eq_div, abs_div, ← Int.cast_natCast, show ((1000000 : Nat) : Int) = 1000000 from rfl,
      hmillion, div_le_iff₀ (by norm_num)]
    exact hmicros.trans (by norm_num)
  have hthousand : Within 11 (ofRat 1000) := by
    have h : |(1000 : ℚ)| ≤ 2 ^ 10 := by norm_num
    exact (within_ofRat h (by omega)).mono (by omega)
  exact hseconds.scale hthousand (by omega)

end Staleness

end DebtSurvey
