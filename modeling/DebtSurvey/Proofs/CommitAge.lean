import DebtSurvey.Proofs.CommitDate
import DebtSurvey.Proofs.Nearest

/-!
# Ages of commits

The moment of a commit is turned into floating point milliseconds before it is subtracted from the
clock. Whole seconds survive that, and so do whole milliseconds, as long as a significand can tell
them. A clock far before the epoch leaves that range: odd differences beyond it are rounded to an
even neighbour, and one that is a millisecond short of a whole day is rounded up to that day. Only
there is an age one day more than the floor of the difference.

## Main results

* `Binary64.rounded_tie`: where an odd number between the even ones goes.
* `Age.floor_rounded_div`: the whole quotient of a rounded number, and where it is one too many.
* `Staleness.age_of_sinceEpoch`: the age of a moment of whole seconds.
* `Staleness.scan_spelling`: what a search makes of a commit, however its date is spelled.
-/

namespace DebtSurvey

namespace Binary64

/-! ### Whole numbers that are rounded -/

theorem rounded_eq_self {r : ℚ} (h : IsExact r) : rounded r = r := (eq_rounded h).symm

/-- Even numbers are told twice as far as odd ones. -/
theorem rounded_even {n : Int} (hn : |n| < 2 ^ 54) (heven : 2 ∣ n) : rounded n = n := by
  obtain ⟨k, rfl⟩ := heven
  have hk : |k| < 2 ^ 53 := by
    rw [abs_lt] at hn ⊢
    omega
  have hexact := isExact_mul_pow (e := 1) hk (by omega)
  rw [pow_one, mul_comm] at hexact
  exact_mod_cast rounded_eq_self hexact

/-- A number that is one more than a multiple of four is half way between two even ones, and goes to
that multiple, which has the even significand. -/
theorem rounded_tie {m : Nat} (hlow : 2 ^ 53 < m) (hhigh : m < 2 ^ 54) (hfour : m % 4 = 1) :
    rounded m = m - 1 := by
  have hexponent : exponentOf m 1 = 1 := by
    obtain ⟨hfloor, hceil⟩ := floorLog2_spec (by omega : 0 < m) (one_pos : 0 < 1)
    rw [Nat.cast_one, div_one] at hfloor hceil
    have hmlow : (2 : ℚ) ^ (53 : ℤ) < m := by exact_mod_cast hlow
    have hmhigh : (m : ℚ) < 2 ^ (54 : ℤ) := by exact_mod_cast hhigh
    have habove : floorLog2 m 1 < 54 :=
      (zpow_lt_zpow_iff_right₀ one_lt_two).mp (hfloor.trans_lt hmhigh)
    have hbelow : 53 < floorLog2 m 1 + 1 :=
      (zpow_lt_zpow_iff_right₀ one_lt_two).mp (hmlow.trans hceil)
    simp only [exponentOf, minExponent]
    omega
  have hsignificand : significandOf m 1 = m / 2 := by
    rw [significandOf, hexponent]
    have hhalf : roundDiv m 2 = m / 2 := by
      simp only [roundDiv]
      split_ifs <;> omega
    simpa using hhalf
  have hwhole : ((2 * (m / 2) + 1 : Nat) : ℚ) = m := by
    congr 1
    omega
  rw [rounded_of_nonneg (Nat.cast_nonneg m), Rat.num_natCast, Rat.den_natCast, Int.natAbs_natCast,
    roundedRatio, hsignificand, hexponent, ← hwhole]
  push_cast
  ring

/-- A product is rounded once. -/
theorem toRat?_scale {x : Binary64} {a c : ℚ} (hx : x.toRat? = some a) (hc : IsExact c) :
    (scale c x).toRat? = (ofRat (a * c)).toRat? := by
  rw [scale_eq_lift₂ hx, lift₂, hx, hc]

end Binary64

namespace Age

open Binary64

/-- A whole number is rounded to none beyond its neighbours. -/
theorem abs_rounded_sub_le {n : Int} (hn : |n| < 2 ^ 54 - 1) : |rounded n - n| ≤ 1 := by
  rw [abs_lt] at hn
  by_cases heven : 2 ∣ n
  · rw [rounded_even (abs_lt.mpr (by omega)) heven, sub_self, abs_zero]
    exact zero_le_one
  · -- the neighbours of an odd number are even, and rounding keeps the order
    have hbelow : rounded (n - 1 : Int) = (n - 1 : Int) :=
      rounded_even (abs_lt.mpr (by omega)) (by omega)
    have habove : rounded (n + 1 : Int) = (n + 1 : Int) :=
      rounded_even (abs_lt.mpr (by omega)) (by omega)
    have hlow : rounded (n - 1 : Int) ≤ rounded n :=
      rounded_mono (by exact_mod_cast Int.sub_le_self n zero_le_one)
    have hhigh : rounded n ≤ rounded (n + 1 : Int) :=
      rounded_mono (by exact_mod_cast Int.le_add_one le_rfl)
    rw [hbelow] at hlow
    rw [habove] at hhigh
    push_cast at hlow hhigh
    rw [abs_le]
    constructor <;> linarith

/-- The whole quotient of a rounded number by a multiple of four is that of the number itself, but
one more where the number is rounded up to a multiple of the divisor. -/
theorem floor_rounded_div {d : Nat} (hd : 0 < d) (hfour : 4 ∣ d) {n : Int} (hlow : -2 ^ 54 + 1 < n)
    (hhigh : n < 2 ^ 53) :
    ⌊rounded n / d⌋ = n.fdiv d + if n < -2 ^ 53 ∧ (d : Int) ∣ n + 1 then 1 else 0 := by
  have hd' : (0 : Int) < d := by exact_mod_cast hd
  have hfdiv : n.fdiv d = n / d := Int.fdiv_eq_ediv_of_nonneg n hd'.le
  have hexact (k : Int) : ⌊(k : ℚ) / d⌋ = k / d := Rat.floor_intCast_div_natCast k d
  have hfour' : (4 : Int) ∣ d := by exact_mod_cast hfour
  rw [hfdiv]
  split
  · rename_i hup
    obtain ⟨hfar, hday⟩ := hup
    -- one more than a multiple of four, below zero, goes up
    have hmod : (-n).toNat % 4 = 1 := by
      have hrest := hfour'.trans hday
      omega
    have htie := rounded_tie (m := (-n).toNat) (by omega) (by omega) hmod
    have hrounded : rounded n = (n + 1 : Int) := by
      have hcast : (((-n).toNat : Nat) : ℚ) = -n := by
        rw [← Int.cast_natCast, Int.toNat_of_nonneg (by omega), Int.cast_neg]
      rw [hcast, rounded_neg] at htie
      push_cast
      linarith
    obtain ⟨k, hk⟩ := hday
    have hquotient : n / d = k - 1 := by
      have hsplit : n = (d - 1) + d * (k - 1) := by linarith
      rw [hsplit, Int.add_mul_ediv_left _ _ hd'.ne', Int.ediv_eq_zero_of_lt (by omega) (by omega),
        zero_add]
    rw [hrounded, hexact, hk, Int.mul_ediv_cancel_left k hd'.ne', hquotient, sub_add_cancel]
  · rename_i hup
    rw [add_zero]
    by_cases hsame : -2 ^ 53 < n ∨ 2 ∣ n
    · have hrounded : rounded n = n := hsame.elim
        (fun hnear => rounded_eq_self (isExact_int (abs_lt.mpr ⟨hnear, hhigh⟩)))
        (rounded_even (abs_lt.mpr (by omega)))
      rw [hrounded, hexact]
    · -- an odd remainder that is not the last one leaves room for a neighbour on either side
      obtain ⟨hfar, hodd⟩ := not_or.mp hsame
      have hclose := abs_le.mp (abs_rounded_sub_le (n := n) (abs_lt.mpr (by omega)))
      have hremainder := Int.mul_ediv_add_emod n d
      have hlast : n % d + 1 ≠ d := fun hlast => hup ⟨by omega, n / d + 1, by linarith⟩
      have hnonneg := Int.emod_nonneg n hd'.ne'
      have hless := Int.emod_lt_of_pos n hd'
      have hfirst : n % d ≠ 0 := fun hzero =>
        hodd ((by omega : (2 : Int) ∣ d).trans (Int.dvd_of_emod_eq_zero hzero))
      have hfloor : (d : ℚ) * (n / d : Int) + 1 ≤ n := by
        exact_mod_cast (by omega : (d : Int) * (n / d) + 1 ≤ n)
      have hceil : (n : ℚ) + 1 < d * ((n / d : Int) + 1) := by
        exact_mod_cast (by linarith [(by omega : n % d + 2 ≤ d)] : n + 1 < d * (n / d + 1))
      have hdq : (0 : ℚ) < d := by exact_mod_cast hd
      rw [Int.floor_eq_iff, le_div_iff₀ hdq, div_lt_iff₀ hdq]
      constructor <;> linarith

/-- The day that rounding adds to the age of a moment by a clock: the clock is so far before the
moment that odd differences are not told, and it is a millisecond short of a whole day. -/
def roundedUp (moment clock : Int) : Int :=
  if clock - moment < -2 ^ 53 ∧ (millisPerDay : Int) ∣ clock - moment + 1 then 1 else 0

/-- By a clock of the exact range of floating point a moment after the epoch has the age of whole
numbers, and sometimes the day that rounding adds. -/
theorem between_of_toRat? {x : Binary64} {moment clock : Int} (hx : x.toRat? = some (moment : ℚ))
    (hmoment : 0 ≤ moment) (hnear : moment < 2 ^ 52) (hclock : |clock| < 2 ^ 53) :
    between (.float x) (.int clock) = .ok (days moment clock + roundedUp moment clock) := by
  obtain ⟨hlow, hhigh⟩ := abs_lt.mp hclock
  have hq : |(moment : ℚ)| ≤ 2 ^ 53 := by
    have habs : |moment| ≤ 2 ^ 53 := abs_le.mpr (by omega)
    exact_mod_cast habs
  have hfloor := floor_rounded_div (d := millisPerDay) (n := clock - moment) (by decide) (by decide)
    (by omega) (by omega)
  rw [between_eq_floor hx hq hclock, ← Int.cast_sub, hfloor]
  rfl

end Age

namespace Staleness

open Binary64 Calendar

/-- The milliseconds of a moment of whole seconds are not rounded. -/
theorem toRat?_millis {moment : Moment} {instant : Int}
    (h : moment.sinceEpoch = instant * 1000000) (hinstant : 0 ≤ instant)
    (hnear : 1000 * instant < 2 ^ 53) :
    (millis moment).toRat? = some ((1000 * instant : Int) : ℚ) := by
  have hseconds : mkRat (instant * 1000000) 1000000 = (instant : ℚ) := by
    rw [Rat.mkRat_eq_div]
    push_cast
    exact mul_div_cancel_right₀ _ (by norm_num)
  have hexact : IsExact (instant : ℚ) := isExact_int (abs_lt.mpr (by omega))
  have hthousand : IsExact 1000 := by simpa using isExact_int (n := 1000) (by norm_num)
  have hmillis : IsExact ((1000 * instant : Int) : ℚ) := isExact_int (abs_lt.mpr (by omega))
  rw [millis, h, hseconds, toRat?_scale hexact hthousand, mul_comm]
  exact_mod_cast hmillis

/-- A date of the calendar comes less than so many seconds after the epoch. -/
theorem instant_lt {instant : Int} (hyear : (Moment.dateOf instant).year < maxYear) :
    instant < 300000000000 := by
  have hvalid : (Moment.dateOf instant).isValid := (isReal_dateAt _).isValid hyear.le
  have hordinal := Date.ordinal_lt hvalid
  have hday := dayNumber_dateAt (instant / 86400 + daysBeforeEpoch).toNat
  change (Moment.dateOf instant).dayNumber = _ at hday
  simp only [Date.dayNumber, epochDay, daysBeforeEpoch] at hday
  omega

/-- The age of a moment of whole seconds. -/
theorem age_of_sinceEpoch {moment : Moment} {instant clock : Int}
    (h : moment.sinceEpoch = instant * 1000000) (hinstant : 0 ≤ instant)
    (hyear : (Moment.dateOf instant).year < maxYear) (hclock : |clock| < 2 ^ 53) :
    age moment clock =
      .ok (Age.days (1000 * instant) clock + Age.roundedUp (1000 * instant) clock) := by
  have hlt := instant_lt hyear
  exact Age.between_of_toRat? (toRat?_millis h hinstant (by omega)) (by omega) (by omega) hclock

/-- The search for stale files in a list of one file whose last commit is known. -/
theorem fst_scan_singleton {root file commit : Text} {daysThreshold importThreshold : Int}
    {fanIn : FanIn} {clock days : Int} {moment : Moment} {w : World}
    (hlast : (History.lastModified root file w).1 = some (commit, moment))
    (hage : age moment clock = .ok days) :
    (scan root daysThreshold importThreshold fanIn clock [file] w).1 =
      .ok (finding? daysThreshold importThreshold fanIn file commit days).toList := by
  rcases hasked : History.lastModified root file w with ⟨last, v⟩
  rw [hasked] at hlast
  obtain rfl : last = some (commit, moment) := hlast
  simp [scan, inspectAll, inspect, hasked, hage, Except.map]

/-- However the date of a commit is spelled, a search for stale files comes to the same, and takes
the floor of the difference in days for the age, but where rounding adds a day to it. -/
theorem scan_spelling (root file commit : Text) (daysThreshold importThreshold : Int)
    (fanIn : FanIn) {clock instant : Int} (hclock : |clock| < 2 ^ 53)
    (hcommit : History.IsCommit commit) (hinstant : 0 ≤ instant)
    (hyear : (Moment.dateOf instant).year ≤ 9000) (zone zone' : Zone) {w w' : World}
    (hanswers : History.Answers root file (History.lastAnswer commit instant zone) w)
    (hanswers' : History.Answers root file (History.lastAnswer commit instant zone') w') :
    (scan root daysThreshold importThreshold fanIn clock [file] w).1 =
        (scan root daysThreshold importThreshold fanIn clock [file] w').1 ∧
      (scan root daysThreshold importThreshold fanIn clock [file] w).1 =
        .ok (finding? daysThreshold importThreshold fanIn file commit
          (Age.days (1000 * instant) clock + Age.roundedUp (1000 * instant) clock)).toList := by
  have hyear' : (Moment.dateOf instant).year < maxYear := hyear.trans_lt (by decide)
  have hscan {zone : Zone} {v : World}
      (hv : History.Answers root file (History.lastAnswer commit instant zone) v) :
      (scan root daysThreshold importThreshold fanIn clock [file] v).1 =
        .ok (finding? daysThreshold importThreshold fanIn file commit
          (Age.days (1000 * instant) clock + Age.roundedUp (1000 * instant) clock)).toList :=
    fst_scan_singleton (History.lastModified_of_answers hcommit hyear' hv)
      (age_of_sinceEpoch (Moment.sinceEpoch_shownAt hinstant zone) hinstant hyear' hclock)
  exact ⟨(hscan hanswers).trans (hscan hanswers').symm, hscan hanswers⟩

/-- A world that answers about the last commit of one file. -/
def answering (answer : Text) : World where
  files := .dir []
  host.script :=
    [(Host.key ("git" :: History.probe), [.exited 0 ".git" []]),
      (Host.key ("git" :: History.lastArguments ['a']), [.exited 0 answer []])]

/-- By a clock of the year -283459 a commit of April 1970 is one day less far ahead than it is,
with its date in universal time and on a clock on which it is still the day before. -/
theorem scan_spelling_early :
    |(-9007199136000001 : Int)| < 2 ^ 53 ∧ History.IsCommit ['c'] ∧ (0 : Int) ≤ 8640000 ∧
      (Moment.dateOf 8640000).year ≤ 9000 ∧
      History.lastAnswer ['c'] 8640000 .utc = "c\t1970-04-11T00:00:00Z\n" ∧
      History.lastAnswer ['c'] 8640000 (.behind 8 30) = "c\t1970-04-10T15:30:00-08:30\n" ∧
      History.Answers [] ['a'] (History.lastAnswer ['c'] 8640000 .utc)
        (answering "c\t1970-04-11T00:00:00Z\n") ∧
      History.Answers [] ['a'] (History.lastAnswer ['c'] 8640000 (.behind 8 30))
        (answering "c\t1970-04-10T15:30:00-08:30\n") ∧
      Age.days 8640000000 (-9007199136000001) = -104250091 ∧
      (scan [] (-200000000) 0 [] (-9007199136000001) [['a']]
          (answering "c\t1970-04-11T00:00:00Z\n")).1 =
        (scan [] (-200000000) 0 [] (-9007199136000001) [['a']]
          (answering "c\t1970-04-10T15:30:00-08:30\n")).1 ∧
      (scan [] (-200000000) 0 [] (-9007199136000001) [['a']]
          (answering "c\t1970-04-11T00:00:00Z\n")).1 =
        .ok (finding? (-200000000) 0 [] ['a'] ['c'] (-104250090)).toList := by
  have hclock : |(-9007199136000001 : Int)| < 2 ^ 53 := by decide
  have hcommit : History.IsCommit ['c'] :=
    ⟨by decide, fun c hc => by rw [List.mem_singleton.mp hc]; rfl⟩
  have hinstant : (0 : Int) ≤ 8640000 := by decide
  have hyear : (Moment.dateOf 8640000).year ≤ 9000 := by decide +kernel
  have hutc : History.lastAnswer ['c'] 8640000 .utc = "c\t1970-04-11T00:00:00Z\n" := by
    decide +kernel
  have hbehind : History.lastAnswer ['c'] 8640000 (.behind 8 30) =
      "c\t1970-04-10T15:30:00-08:30\n" := by decide +kernel
  have hanswers : History.Answers [] ['a'] (History.lastAnswer ['c'] 8640000 .utc)
      (answering "c\t1970-04-11T00:00:00Z\n") := by
    rw [hutc]
    exact ⟨rfl, rfl⟩
  have hanswers' : History.Answers [] ['a'] (History.lastAnswer ['c'] 8640000 (.behind 8 30))
      (answering "c\t1970-04-10T15:30:00-08:30\n") := by
    rw [hbehind]
    exact ⟨rfl, rfl⟩
  obtain ⟨hsame, hscan⟩ := scan_spelling [] ['a'] ['c'] (-200000000) 0 [] hclock hcommit hinstant
    hyear .utc (.behind 8 30) hanswers hanswers'
  have hdays : Age.days (1000 * 8640000) (-9007199136000001) +
      Age.roundedUp (1000 * 8640000) (-9007199136000001) = -104250090 := rfl
  rw [hdays] at hscan
  exact ⟨hclock, hcommit, hinstant, hyear, hutc, hbehind, hanswers, hanswers', rfl, hsame,
    hscan⟩

end Staleness

end DebtSurvey
