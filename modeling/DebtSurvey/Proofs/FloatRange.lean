import DebtSurvey.Proofs.Nearest

/-!
# The range of the format

The largest number of the format has a full significand and the greatest exponent. What is less than
half a step beyond it is rounded to a number of the format, and what is half a step beyond it or
more is rounded to an infinity (the tie goes to the even significand, which the format has no place
for). So an operation whose exact result stays below that end has a number for its result, however
large that is.

## Main results

* `Binary64.held_ofRat`, `Binary64.ofRat_eq_infinite`: what the format can hold, and what not.
* `Binary64.Held.floorDiv`: a whole quotient of a number that is held is held.
* `Age.between_held`, `Age.between_overflow`: a clock has ages exactly if the format can hold it.
-/

namespace DebtSurvey

namespace Binary64

/-- The largest number of the format. -/
def largest : ℚ := (2 ^ 53 - 1) * 2 ^ 971

/-- The end of the range: half a step beyond the largest number. -/
@[irreducible] def rangeEnd : Int := (2 ^ 54 - 1) * 2 ^ 970

theorem rangeEnd_eq : (rangeEnd : ℚ) = (2 ^ 53 - 1 + 1 / 2) * 2 ^ 971 := by
  have hpower : (2 : ℚ) ^ 971 = 2 ^ 970 * 2 := pow_succ 2 970
  simp only [rangeEnd, hpower, Int.cast_mul, Int.cast_pow, Int.cast_ofNat]
  generalize (2 : ℚ) ^ 970 = u
  norm_num
  ring

/-! ### Halves -/

/-- A quotient below a whole number and a half does not round to more than that number. -/
theorem roundDiv_le_of_lt_half {n d k : Nat} (hd : 0 < d) (h : 2 * n < (2 * k + 1) * d) :
    roundDiv n d ≤ k := by
  have hn : d * (n / d) + n % d = n := Nat.div_add_mod n d
  have hr : n % d < d := Nat.mod_lt n hd
  unfold roundDiv
  generalize n / d = q, n % d = r at *
  have hq : q ≤ k := by
    by_contra! hlt
    nlinarith [Nat.mul_le_mul_left d (Nat.succ_le_of_lt hlt)]
  simp only
  rcases hq.lt_or_eq with hlt | rfl
  · split_ifs <;> omega
  · have hhalf : 2 * r < d := by nlinarith
    rw [if_pos hhalf]

/-- A quotient of an odd number and a half, or more, rounds to more than that number. -/
theorem lt_roundDiv_of_half_le {n d k : Nat} (hd : 0 < d) (hk : k % 2 = 1)
    (h : (2 * k + 1) * d ≤ 2 * n) : k < roundDiv n d := by
  have hn : d * (n / d) + n % d = n := Nat.div_add_mod n d
  have hr : n % d < d := Nat.mod_lt n hd
  unfold roundDiv
  generalize n / d = q, n % d = r at *
  have hq : k ≤ q := by
    by_contra! hlt
    nlinarith [Nat.mul_le_mul_left d (Nat.succ_le_of_lt hlt)]
  simp only
  rcases hq.lt_or_eq with hlt | rfl
  · split_ifs <;> omega
  · have hhalf : d ≤ 2 * r := by nlinarith
    split_ifs <;> omega

section Ratio

variable {num den : Nat}

theorem half_le_scaled_iff (hden : 0 < den) (e : Int) (k : Nat) :
    (2 * k + 1) * (den * Nat.pow 2 e.toNat) ≤ 2 * (num * Nat.pow 2 (-e).toNat) ↔
      (k + 1 / 2) * 2 ^ e ≤ (num : ℚ) / den := by
  rw [← mul_assoc 2 num, le_scaled_iff hden e (2 * k + 1)]
  push_cast
  rw [mul_div_assoc]
  constructor <;> intro h <;> linarith

theorem significandOf_le_of_lt_half {k : Nat} (hden : 0 < den)
    (h : (num : ℚ) / den < (k + 1 / 2) * 2 ^ exponentOf num den) : significandOf num den ≤ k := by
  refine roundDiv_le_of_lt_half (Nat.mul_pos hden (Nat.two_pow_pos _)) ?_
  rwa [← not_le, half_le_scaled_iff hden, not_le]

theorem lt_significandOf_of_half_le {k : Nat} (hden : 0 < den) (hk : k % 2 = 1)
    (h : (k + 1 / 2) * 2 ^ exponentOf num den ≤ (num : ℚ) / den) : k < significandOf num den :=
  lt_roundDiv_of_half_le (Nat.mul_pos hden (Nat.two_pow_pos _)) hk
    ((half_le_scaled_iff hden _ k).mpr h)

/-- How a quotient is written: a significand at the limit takes the next exponent. -/
theorem ofRatio_eq (negative : Bool) (hnum : num ≠ 0) :
    ofRatio negative num den =
      if maxExponent < exponentOf num den + (if significandOf num den = significandLimit then 1 else 0)
      then .infinite negative
      else if significandOf num den = significandLimit then
        .finite negative (Nat.pow 2 52) (exponentOf num den + 1)
      else .finite negative (significandOf num den) (exponentOf num den) := by
  rw [ofRatio, if_neg hnum]
  simp only
  rw [show max (floorLog2 num den - 52) minExponent = exponentOf num den from rfl,
    show roundDiv _ _ = significandOf num den from rfl]
  by_cases hlimit : significandOf num den = significandLimit
  · simp only [hlimit, if_true]
  · simp only [hlimit, if_false, add_zero]

/-- The exponent is the greatest one at most, up to the power of two beyond the largest number. -/
theorem exponentOf_le (hnum : 0 < num) (hden : 0 < den)
    (h : (num : ℚ) / den < 2 ^ 53 * 2 ^ 971) : exponentOf num den ≤ maxExponent := by
  have hpower : (2 : ℚ) ^ floorLog2 num den < 2 ^ (1024 : ℤ) := by
    refine (floorLog2_spec hnum hden).1.trans_lt (h.trans_eq ?_)
    rw [← pow_add, ← zpow_natCast]
    rfl
  have hlog := (zpow_lt_zpow_iff_right₀ one_lt_two).mp hpower
  simp only [exponentOf, minExponent, maxExponent]
  omega

theorem largest_nonneg : 0 ≤ largest := mul_nonneg (by norm_num) (pow_nonneg zero_le_two 971)

theorem largest_lt_rangeEnd : largest < rangeEnd := by
  rw [rangeEnd_eq, largest]
  gcongr
  norm_num

/-- Below the end of the range a quotient is not rounded beyond the largest number. -/
theorem roundedRatio_le_largest (hnum : 0 < num) (hden : 0 < den)
    (h : (num : ℚ) / den < rangeEnd) :
    exponentOf num den + (if significandOf num den = significandLimit then 1 else 0) ≤ maxExponent ∧
      roundedRatio num den ≤ largest := by
  rw [rangeEnd_eq] at h
  have hbelow : (num : ℚ) / den < 2 ^ 53 * 2 ^ 971 := h.trans (by gcongr; norm_num)
  rcases (exponentOf_le hnum hden hbelow).eq_or_lt with hlast | hless
  · -- with the greatest exponent no significand is left beyond the full one
    have hpower : (2 : ℚ) ^ exponentOf num den = 2 ^ 971 := by
      rw [hlast]
      exact zpow_natCast 2 971
    have hfull : significandOf num den ≤ 2 ^ 53 - 1 := by
      refine significandOf_le_of_lt_half hden (h.trans_eq ?_)
      rw [hpower]
      norm_num
    have hlimit : significandOf num den ≠ significandLimit := by
      simp only [significandLimit, Nat.pow_eq]
      omega
    rw [if_neg hlimit, add_zero, roundedRatio, hpower, largest]
    refine ⟨hlast.le, ?_⟩
    have hcast : (significandOf num den : ℚ) ≤ (2 ^ 53 - 1 : Nat) := Nat.cast_le.mpr hfull
    gcongr
    exact hcast.trans_eq (by norm_num)
  · -- below it a carry is still within the format
    have hlimit : significandOf num den ≤ significandLimit :=
      significandOf_le hden (lt_limit_mul hnum hden).le
    refine ⟨by split <;> omega, ?_⟩
    have hcast : (significandOf num den : ℚ) ≤ 2 ^ 53 :=
      (Nat.cast_le.mpr hlimit).trans_eq (by norm_num [significandLimit])
    have hexponent : exponentOf num den ≤ 970 := Int.le_of_lt_add_one hless
    calc roundedRatio num den
        ≤ 2 ^ 53 * 2 ^ (970 : ℤ) := by
          unfold roundedRatio
          gcongr
          exact one_le_two
      _ ≤ (2 ^ 53 - 1) * 2 * 2 ^ (970 : ℤ) := by
          gcongr
          norm_num
      _ = largest := by
          have hpower : (2 : ℚ) * 2 ^ (970 : ℤ) = 2 ^ 971 := by
            rw [← zpow_natCast (2 : ℚ) 971, ← zpow_one_add₀ two_ne_zero]
            rfl
          rw [largest, mul_assoc, hpower]

theorem roundedRatio_nonneg (num den : Nat) : 0 ≤ roundedRatio num den := by
  unfold roundedRatio
  positivity

/-- Below the end of the range a quotient is rounded to a number, which is not larger than the
largest. -/
theorem toRat?_ofRatio_of_lt (negative : Bool) (hden : 0 < den) (h : (num : ℚ) / den < rangeEnd) :
    ∃ q, (ofRatio negative num den).toRat? = some q ∧ |q| ≤ largest := by
  by_cases hnum : num = 0
  · refine ⟨0, ?_, ?_⟩
    · simp [ofRatio, hnum, toRat?]
    · rw [abs_zero]
      exact largest_nonneg
  · obtain ⟨hexponent, hvalue⟩ := roundedRatio_le_largest (Nat.pos_of_ne_zero hnum) hden h
    obtain ⟨q, hq⟩ : ∃ q, (ofRatio negative num den).toRat? = some q := by
      rw [ofRatio_eq negative hnum, if_neg hexponent.not_gt]
      by_cases hlimit : significandOf num den = significandLimit
      · rw [if_pos hlimit]
        exact ⟨_, rfl⟩
      · rw [if_neg hlimit]
        exact ⟨_, rfl⟩
    have hmagnitude : |q| = roundedRatio num den := by
      have hpos := roundedRatio_nonneg num den
      rw [eq_of_toRat?_ofRatio hq]
      split
      · rw [abs_neg, abs_of_nonneg hpos]
      · exact abs_of_nonneg hpos
    exact ⟨q, hq, hmagnitude.trans_le hvalue⟩

/-- From the end of the range on a quotient is rounded to an infinity. -/
theorem ofRatio_eq_infinite (negative : Bool) (hden : 0 < den) (h : (rangeEnd : ℚ) ≤ num / den) :
    ofRatio negative num den = .infinite negative := by
  have hend : (0 : ℚ) < rangeEnd := largest_nonneg.trans_lt largest_lt_rangeEnd
  have hnum : num ≠ 0 := by
    rintro rfl
    rw [Nat.cast_zero, zero_div] at h
    exact absurd hend h.not_gt
  have hpos : 0 < num := Nat.pos_of_ne_zero hnum
  rw [rangeEnd_eq] at h
  have hexponent : maxExponent ≤ exponentOf num den := by
    have hpower : (2 : ℚ) ^ (1023 : ℤ) < 2 ^ (floorLog2 num den + 1) := by
      refine lt_of_le_of_lt ?_ ((floorLog2_spec hpos hden).2)
      refine le_trans ?_ h
      have hsplit : (2 : ℚ) ^ (1023 : ℤ) = 2 ^ 52 * 2 ^ 971 := by
        rw [← pow_add, ← zpow_natCast]
        rfl
      rw [hsplit]
      gcongr
      norm_num
    have hlog := (zpow_lt_zpow_iff_right₀ one_lt_two).mp hpower
    simp only [exponentOf, minExponent, maxExponent]
    omega
  rw [ofRatio_eq negative hnum, if_pos]
  rcases hexponent.eq_or_lt with hlast | hmore
  · -- with the greatest exponent the significand is rounded up to the limit
    have hpower : (2 : ℚ) ^ exponentOf num den = 2 ^ 971 := by
      rw [← hlast]
      exact zpow_natCast 2 971
    have hfull : 2 ^ 53 - 1 < significandOf num den := by
      refine lt_significandOf_of_half_le hden (by norm_num) (le_trans (le_of_eq ?_) h)
      rw [hpower]
      norm_num
    have hlimit : significandOf num den ≤ significandLimit :=
      significandOf_le hden (lt_limit_mul hpos hden).le
    rw [if_pos (by simp only [significandLimit, Nat.pow_eq] at hlimit ⊢; omega)]
    omega
  · exact hmore.trans_le (le_add_of_nonneg_right (by split <;> omega))

end Ratio

/-! ### Rationals -/

variable {r : ℚ}

/-- A number that the format holds. -/
def Held (x : Binary64) : Prop := ∃ q, x.toRat? = some q ∧ |q| ≤ largest

/-- Below the end of the range a rational is rounded to a number of the format. -/
theorem held_ofRat (h : |r| < rangeEnd) : Held (ofRat r) :=
  toRat?_ofRatio_of_lt _ r.den_pos (by rwa [natAbs_num_div_den])

/-- From the end of the range on a rational is rounded to an infinity. -/
theorem ofRat_eq_infinite (h : (rangeEnd : ℚ) ≤ |r|) : ofRat r = .infinite (r < 0) :=
  ofRatio_eq_infinite _ r.den_pos (by rwa [natAbs_num_div_den])

/-- Beyond the largest number there is room for what a moment or a unit adds. -/
theorem largest_add_lt : largest + 2 ^ 53 < rangeEnd := by
  have hroom : (2 : ℚ) ^ 54 < 2 ^ 971 := pow_lt_pow_right₀ one_lt_two (by norm_num)
  rw [rangeEnd_eq, largest, add_mul]
  generalize (2 : ℚ) ^ 971 = step at hroom ⊢
  linarith

/-- Integers of the exact range are far from the end. -/
theorem lt_rangeEnd {n : Int} (h : |n| < 2 ^ 53) : |n| < rangeEnd := by
  have hend : (2 : ℚ) ^ 53 < rangeEnd :=
    (le_add_of_nonneg_left largest_nonneg).trans_lt largest_add_lt
  have hn : (|n| : ℚ) < 2 ^ 53 := by exact_mod_cast h
  exact_mod_cast hn.trans hend

/-! ### Operations near the end of the range -/

variable {x y : Binary64} {a b d : ℚ}

/-- A difference with something small is held. -/
theorem Held.sub (hx : Held x) (hy : y.toRat? = some b) (hb : |b| ≤ 2 ^ 53) :
    Held (Binary64.sub x y) := by
  obtain ⟨a, ha, hle⟩ := hx
  rw [sub_eq_lift₂ ha hy, lift₂, ha, hy]
  refine held_ofRat (lt_of_le_of_lt ?_ largest_add_lt)
  exact (abs_sub a b).trans (add_le_add hle hb)

/-- A difference with a whole number of the exact range is held. -/
theorem Held.sub_int (hx : Held x) {n : Int} (hn : |n| < 2 ^ 53) :
    Held (Binary64.sub x (ofInt n)) :=
  hx.sub (isExact_int hn) (by exact_mod_cast hn.le)

/-- A whole quotient by a number of at least one, itself of the format, is held if the dividend
is. -/
theorem Held.floorDiv (hx : Held x) (hd : IsExact d) (hone : 1 ≤ d) :
    Held (Binary64.floorDiv x d) := by
  obtain ⟨v, hxv, hv⟩ := hx
  have hdpos : 0 < d := lt_of_lt_of_le one_pos hone
  have hroom : largest + 1 < rangeEnd :=
    lt_of_le_of_lt (add_le_add_right (one_le_pow₀ one_le_two) _) largest_add_lt
  unfold Binary64.floorDiv
  simp only [hxv]
  have hleft : |v - (v - d * truncate (v / d))| ≤ largest := (abs_sub_remainder_le v hdpos).trans hv
  generalize v - d * truncate (v / d) = remainder at hleft ⊢
  have hquotient : Held (lift₂ (· / ·) (ofRat (v - remainder)) (ofRat d)) := by
    obtain ⟨a, ha, hle⟩ := held_ofRat (hleft.trans_lt largest_lt_rangeEnd)
    rw [lift₂, ha, hd]
    refine held_ofRat (lt_of_le_of_lt ?_ largest_lt_rangeEnd)
    rw [abs_div, abs_of_pos hdpos]
    exact (div_le_self (abs_nonneg a) hone).trans hle
  -- the quotient is lowered by one when the remainder is negative
  generalize lift₂ (· / ·) (ofRat (v - remainder)) (ofRat d) = quotient at hquotient ⊢
  have hlower : Held (if remainder < 0 then Binary64.sub quotient (ofInt 1) else quotient) := by
    split
    · exact hquotient.sub_int (n := 1) (by norm_num)
    · exact hquotient
  generalize (if remainder < 0 then Binary64.sub quotient (ofInt 1) else quotient) = lower
    at hlower ⊢
  -- what is left is the whole number below it, or the next one
  obtain ⟨q, hq, hqle⟩ := hlower
  have hwhole : Held (ofInt q.floor) :=
    held_ofRat (((abs_floor_le q).trans (add_le_add_left hqle 1)).trans_lt hroom)
  simp only [hq]
  split
  · split
    · exact hwhole.sub_int (n := -1) (by norm_num)
    · exact hwhole
  · exact hwhole

end Binary64

namespace Number

open Binary64

/-- An integer from the end of the range on is none. -/
theorem toFloat_of_ge {n : Int} (h : rangeEnd ≤ |n|) : (int n).toFloat = .error .overflow := by
  have hinfinite : ofInt n = .infinite ((n : ℚ) < 0) := ofRat_eq_infinite (by exact_mod_cast h)
  rw [toFloat, hinfinite]

end Number

namespace Age

open Binary64

variable {moment : Binary64} {clock : Int}

/-- A moment of the calendar has an age by every clock that the format can hold. -/
theorem between_held (hmoment : Within 53 moment) (hclock : |clock| < rangeEnd) :
    ∃ days, between (.float moment) (.int clock) = .ok days := by
  have hheld : Held (ofInt clock) := held_ofRat (by exact_mod_cast hclock)
  obtain ⟨q, hq, hle⟩ := hmoment
  obtain ⟨v, hv, -⟩ : Held (floorDiv (sub (ofInt clock) moment) (millisPerDay : Nat)) :=
    (hheld.sub hq hle).floorDiv toRat?_millisPerDay (by norm_num [millisPerDay])
  obtain ⟨c, hc, -⟩ := hheld
  rw [between, Number.sub_float (Number.toFloat_of_toRat? hc)]
  exact Number.exists_wholePart hv

/-- By a clock that it cannot hold nothing has an age. -/
theorem between_overflow (hclock : rangeEnd ≤ |clock|) :
    between (.float moment) (.int clock) = .error .overflow := by
  have hsub : (Number.int clock).sub (.float moment) = .error .overflow := by
    show ((Number.int clock).toFloat >>= fun x => Except.ok (Number.float (sub x moment))) = _
    rw [Number.toFloat_of_ge hclock]
    rfl
  rw [between, hsub]
  rfl

end Age

end DebtSurvey
