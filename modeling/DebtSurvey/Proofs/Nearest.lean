import DebtSurvey.Proofs.Rounding

/-!
# Rounding keeps the order

The number nearest to a rational is written with an exponent and a significand. A larger rational
has no smaller exponent; with the same exponent it has no smaller significand, and with a larger one
it is beyond everything that the smaller exponent can reach. So rounding is monotone. A rational
that the format can write is left as it is.

From both it follows what an age is: the difference of two numbers is rounded once, and the whole
quotient of that by the length of a day is exact, although each of its steps could round.

## Main results

* `Binary64.rounded_mono`: rounding keeps the order.
* `Binary64.isExact_mul_pow`: a number with a short significand is not rounded.
* `Binary64.toRat?_floorDiv`: the whole quotient is the floor where its steps are not rounded.
* `Age.between_eq_floor` and `Age.between_mono`: the age of a moment, and how it grows.
-/

namespace DebtSurvey

namespace Binary64

/-! ### Whole quotients -/

theorem roundDiv_one (n : Nat) : roundDiv n 1 = n := by
  simp [roundDiv, Nat.mod_one]

/-- A larger quotient does not round to less. -/
theorem roundDiv_mono {n d n' d' : Nat} (hd : 0 < d) (hd' : 0 < d') (h : n * d' ≤ n' * d) :
    roundDiv n d ≤ roundDiv n' d' := by
  have hn : d * (n / d) + n % d = n := Nat.div_add_mod n d
  have hn' : d' * (n' / d') + n' % d' = n' := Nat.div_add_mod n' d'
  have hr : n % d < d := Nat.mod_lt n hd
  have hr' : n' % d' < d' := Nat.mod_lt n' hd'
  generalize hq : n / d = q, hq' : n' / d' = q', hs : n % d = r, hs' : n' % d' = r' at *
  have hle : q ≤ q' := by
    by_contra! hlt
    nlinarith [Nat.mul_le_mul_left (d * d') (Nat.succ_le_of_lt hlt)]
  simp only [roundDiv, hq, hq', hs, hs']
  rcases hle.lt_or_eq with hlt | rfl
  · -- one rounds up to the next whole at most, the other down to its own at least
    split_ifs <;> omega
  · -- the wholes are the same, so the remainders decide
    have hrest : r * d' ≤ r' * d := by nlinarith
    have hup : d ≤ 2 * r → d' ≤ 2 * r' := by
      intro hhalf
      by_contra! hlow
      nlinarith
    have htie : d < 2 * r → d' < 2 * r' := by
      intro hhalf
      by_contra! hlow
      nlinarith
    split_ifs <;> omega

/-- A quotient that is at most a whole number rounds to at most that. -/
theorem roundDiv_le_of_le {n d k : Nat} (hd : 0 < d) (h : n ≤ k * d) : roundDiv n d ≤ k := by
  have hmono := roundDiv_mono hd one_pos (by rwa [mul_one] : n * 1 ≤ k * d)
  rwa [roundDiv_one] at hmono

/-- A quotient that is at least a whole number rounds to at least that. -/
theorem le_roundDiv_of_le {n d k : Nat} (hd : 0 < d) (h : k * d ≤ n) : k ≤ roundDiv n d := by
  have hmono := roundDiv_mono one_pos hd (by rwa [mul_one] : k * d ≤ n * 1)
  rwa [roundDiv_one] at hmono

/-! ### Exponents and significands -/

/-- A quotient, and a number of units of a power of two, times one factor that leaves no fraction of
either. -/
theorem exists_scale (num k : Nat) {den : Nat} (hden : 0 < den) (e : Int) :
    ∃ c : ℚ, 0 < c ∧ ((num * Nat.pow 2 (-e).toNat : Nat) : ℚ) = num / den * c ∧
      ((k * (den * Nat.pow 2 e.toNat) : Nat) : ℚ) = k * 2 ^ e * c := by
  have hden' : (0 : ℚ) < den := by exact_mod_cast hden
  have hhalf : (0 : ℚ) < (Nat.pow 2 (-e).toNat : Nat) := by exact_mod_cast Nat.two_pow_pos _
  refine ⟨den * (Nat.pow 2 (-e).toNat : Nat), mul_pos hden' hhalf, ?_, ?_⟩
  · rw [Nat.cast_mul, ← mul_assoc, div_mul_cancel₀ _ hden'.ne']
  · rw [Nat.cast_mul, Nat.cast_mul, pow_toNat e]
    ring

theorem scaled_le_iff {num den : Nat} (hden : 0 < den) (e : Int) (k : Nat) :
    num * Nat.pow 2 (-e).toNat ≤ k * (den * Nat.pow 2 e.toNat) ↔ (num : ℚ) / den ≤ k * 2 ^ e := by
  obtain ⟨c, hc, hquotient, hunits⟩ := exists_scale num k hden e
  rw [← Nat.cast_le (α := ℚ), hquotient, hunits, mul_le_mul_iff_left₀ hc]

theorem le_scaled_iff {num den : Nat} (hden : 0 < den) (e : Int) (k : Nat) :
    k * (den * Nat.pow 2 e.toNat) ≤ num * Nat.pow 2 (-e).toNat ↔ k * 2 ^ e ≤ (num : ℚ) / den := by
  obtain ⟨c, hc, hquotient, hunits⟩ := exists_scale num k hden e
  rw [← Nat.cast_le (α := ℚ), hquotient, hunits, mul_le_mul_iff_left₀ hc]

/-- The power of two at or below a positive quotient, and the next one above it. -/
theorem floorLog2_spec {num den : Nat} (hnum : 0 < num) (hden : 0 < den) :
    (2 : ℚ) ^ floorLog2 num den ≤ num / den ∧ (num : ℚ) / den < 2 ^ (floorLog2 num den + 1) := by
  have hden' : (0 : ℚ) < den := by exact_mod_cast hden
  have hcompare (e : Int) : num * Nat.pow 2 (-e).toNat < den * Nat.pow 2 e.toNat ↔
      (num : ℚ) / den < 2 ^ e := by
    have hunit : 1 * (den * Nat.pow 2 e.toNat) ≤ num * Nat.pow 2 (-e).toNat ↔
        ((1 : Nat) : ℚ) * 2 ^ e ≤ num / den := le_scaled_iff hden e 1
    rw [one_mul, Nat.cast_one, one_mul] at hunit
    rw [← not_le, hunit, not_le]
  have hnumLow : (2 : ℚ) ^ (num.log2 : ℤ) ≤ num := by
    exact_mod_cast Nat.log2_self_le hnum.ne'
  have hnumHigh : (num : ℚ) < 2 ^ ((num.log2 : ℤ) + 1) := by
    exact_mod_cast (Nat.lt_log2_self : num < 2 ^ (num.log2 + 1))
  have hdenLow : (2 : ℚ) ^ (den.log2 : ℤ) ≤ den := by
    exact_mod_cast Nat.log2_self_le hden.ne'
  have hdenHigh : (den : ℚ) < 2 ^ ((den.log2 : ℤ) + 1) := by
    exact_mod_cast (Nat.lt_log2_self : den < 2 ^ (den.log2 + 1))
  simp only [floorLog2, hcompare]
  generalize (num.log2 : ℤ) = a, (den.log2 : ℤ) = b at *
  -- the logarithms leave two powers to choose from
  have hlow : (2 : ℚ) ^ (a - b - 1) ≤ num / den := by
    rw [le_div_iff₀ hden']
    calc (2 : ℚ) ^ (a - b - 1) * den
        ≤ 2 ^ (a - b - 1) * 2 ^ (b + 1) := by gcongr
      _ = 2 ^ a := by rw [← zpow_add₀ two_ne_zero]; congr 1; ring
      _ ≤ num := hnumLow
  have hhigh : (num : ℚ) / den < 2 ^ (a - b + 1) := by
    rw [div_lt_iff₀ hden']
    calc (num : ℚ) < 2 ^ (a + 1) := hnumHigh
      _ = 2 ^ (a - b + 1) * 2 ^ b := by rw [← zpow_add₀ two_ne_zero]; congr 1; ring
      _ ≤ 2 ^ (a - b + 1) * den := by gcongr
  split
  · rename_i hless
    rw [sub_add_cancel]
    exact ⟨hlow, hless⟩
  · rename_i hless
    exact ⟨not_lt.mp hless, hhigh⟩

/-- The exponent that a quotient is written with. -/
def exponentOf (num den : Nat) : Int := max (floorLog2 num den - 52) minExponent

/-- The significand that a quotient is rounded to. -/
def significandOf (num den : Nat) : Nat :=
  roundDiv (num * Nat.pow 2 (-exponentOf num den).toNat)
    (den * Nat.pow 2 (exponentOf num den).toNat)

/-- A quotient as it is rounded, however large it is. -/
def roundedRatio (num den : Nat) : ℚ := significandOf num den * 2 ^ exponentOf num den

section Ratio

variable {num den num' den' : Nat}

theorem significandOf_le {k : Nat} (hden : 0 < den)
    (h : (num : ℚ) / den ≤ k * 2 ^ exponentOf num den) : significandOf num den ≤ k :=
  roundDiv_le_of_le (Nat.mul_pos hden (Nat.two_pow_pos _)) ((scaled_le_iff hden _ k).mpr h)

theorem le_significandOf {k : Nat} (hden : 0 < den)
    (h : k * 2 ^ exponentOf num den ≤ (num : ℚ) / den) : k ≤ significandOf num den :=
  le_roundDiv_of_le (Nat.mul_pos hden (Nat.two_pow_pos _)) ((le_scaled_iff hden _ k).mpr h)

/-- A positive quotient is less than the limit of significands, in units of its exponent. -/
theorem lt_limit_mul (hnum : 0 < num) (hden : 0 < den) :
    (num : ℚ) / den < significandLimit * 2 ^ exponentOf num den := by
  have hlimit : (significandLimit : ℚ) = 2 ^ (53 : ℤ) := by norm_num [significandLimit]
  rw [hlimit, ← zpow_add₀ two_ne_zero]
  refine (floorLog2_spec hnum hden).2.trans_le (zpow_le_zpow_right₀ one_le_two ?_)
  unfold exponentOf
  omega

/-- A larger quotient has no smaller exponent. -/
theorem exponentOf_mono (hnum : 0 < num) (hden : 0 < den) (hnum' : 0 < num') (hden' : 0 < den')
    (h : (num : ℚ) / den ≤ num' / den') : exponentOf num den ≤ exponentOf num' den' := by
  have hpower : (2 : ℚ) ^ floorLog2 num den < 2 ^ (floorLog2 num' den' + 1) :=
    ((floorLog2_spec hnum hden).1.trans h).trans_lt (floorLog2_spec hnum' hden').2
  have hlog := (zpow_lt_zpow_iff_right₀ one_lt_two).mp hpower
  unfold exponentOf
  omega

/-- A larger quotient does not round to less. -/
theorem roundedRatio_mono (hnum : 0 < num) (hden : 0 < den) (hnum' : 0 < num') (hden' : 0 < den')
    (h : (num : ℚ) / den ≤ num' / den') : roundedRatio num den ≤ roundedRatio num' den' := by
  unfold roundedRatio
  rcases (exponentOf_mono hnum hden hnum' hden' h).eq_or_lt with heq | hlt
  · -- in the same units the significands keep the order
    rw [heq]
    gcongr
    unfold significandOf
    rw [heq]
    refine roundDiv_mono (Nat.mul_pos hden (Nat.two_pow_pos _))
      (Nat.mul_pos hden' (Nat.two_pow_pos _)) ?_
    have hcross : num * den' ≤ num' * den := by
      rw [div_le_div_iff₀ (by exact_mod_cast hden) (by exact_mod_cast hden')] at h
      exact_mod_cast h
    calc num * Nat.pow 2 (-exponentOf num' den').toNat *
          (den' * Nat.pow 2 (exponentOf num' den').toNat)
        = num * den' * (Nat.pow 2 (-exponentOf num' den').toNat *
            Nat.pow 2 (exponentOf num' den').toNat) := by ring
      _ ≤ num' * den * (Nat.pow 2 (-exponentOf num' den').toNat *
            Nat.pow 2 (exponentOf num' den').toNat) := Nat.mul_le_mul_right _ hcross
      _ = num' * Nat.pow 2 (-exponentOf num' den').toNat *
            (den * Nat.pow 2 (exponentOf num' den').toNat) := by ring
  · -- the larger exponent is that of a normal number, which has a full significand
    have hnormal : exponentOf num' den' = floorLog2 num' den' - 52 := by
      have hmin : minExponent ≤ exponentOf num den := le_max_right _ _
      unfold exponentOf at hlt hmin ⊢
      omega
    have hfull : Nat.pow 2 52 ≤ significandOf num' den' := by
      refine le_significandOf hden' ?_
      have hpower : ((Nat.pow 2 52 : Nat) : ℚ) = 2 ^ (52 : ℤ) := by norm_num
      rw [hpower, ← zpow_add₀ two_ne_zero, hnormal, add_sub_cancel]
      exact (floorLog2_spec hnum' hden').1
    have hshort : significandOf num den ≤ significandLimit :=
      significandOf_le hden (lt_limit_mul hnum hden).le
    calc (significandOf num den : ℚ) * 2 ^ exponentOf num den
        ≤ significandLimit * 2 ^ exponentOf num den := by gcongr
      _ = (Nat.pow 2 52 : Nat) * 2 ^ (exponentOf num den + 1) := by
          rw [zpow_add_one₀ two_ne_zero, significandLimit]
          push_cast
          ring
      _ ≤ significandOf num' den' * 2 ^ exponentOf num' den' := by
          gcongr
          · exact one_le_two
          · omega

theorem roundedRatio_zero (den : Nat) : roundedRatio 0 den = 0 := by
  simp [roundedRatio, significandOf, roundDiv]

/-- A quotient of so many units of a power of two is not rounded, if a significand can tell how many
there are. -/
theorem roundedRatio_eq (hnum : 0 < num) (hden : 0 < den) {k : Nat} {e : Int}
    (hk : k < significandLimit) (he : minExponent ≤ e) (h : (num : ℚ) / den = k * 2 ^ e) :
    roundedRatio num den = num / den := by
  have hexponent : exponentOf num den ≤ e := by
    have hlimit : (k : ℚ) < 2 ^ (53 : ℤ) := by
      have hcast : (k : ℚ) < (significandLimit : Nat) := by exact_mod_cast hk
      exact hcast.trans_eq (by norm_num [significandLimit])
    have hpower : (2 : ℚ) ^ floorLog2 num den < 2 ^ (53 + e) := by
      rw [zpow_add₀ two_ne_zero]
      refine (floorLog2_spec hnum hden).1.trans_lt ?_
      rw [h]
      gcongr
    have hlog := (zpow_lt_zpow_iff_right₀ one_lt_two).mp hpower
    unfold exponentOf
    omega
  -- the units are whole numbers of the units that the quotient is written in
  obtain ⟨n, hn⟩ := Int.eq_ofNat_of_zero_le (sub_nonneg.mpr hexponent)
  have hunits : (num : ℚ) / den = (k * 2 ^ n : Nat) * 2 ^ exponentOf num den := by
    rw [h, ← sub_add_cancel e (exponentOf num den), zpow_add₀ two_ne_zero, hn,
      zpow_natCast]
    push_cast
    ring
  have hsignificand : significandOf num den = k * 2 ^ n :=
    le_antisymm (significandOf_le hden hunits.le) (le_significandOf hden hunits.ge)
  rw [roundedRatio, hsignificand, ← hunits]

/-- A quotient that the format can hold is the number it is rounded to, with its sign. -/
theorem eq_of_toRat?_ofRatio {negative : Bool} {q : ℚ}
    (h : (ofRatio negative num den).toRat? = some q) :
    q = if negative then -roundedRatio num den else roundedRatio num den := by
  unfold ofRatio at h
  split at h
  · rename_i hzero
    subst hzero
    simp only [toRat?, mkRat_pow, roundedRatio_zero, neg_zero, ite_self] at h ⊢
    simpa using h.symm
  · have hcarry : ((Nat.pow 2 52 : Nat) : ℚ) * 2 ^ (exponentOf num den + 1) =
        significandLimit * 2 ^ exponentOf num den := by
      rw [zpow_add_one₀ two_ne_zero, significandLimit]
      push_cast
      ring
    simp only at h
    rw [show max (floorLog2 num den - 52) minExponent = exponentOf num den from rfl,
      show roundDiv _ _ = significandOf num den from rfl] at h
    -- a significand at the limit is written with the next exponent, and means the same
    split at h <;> split at h <;> rename_i hlimit _
    · cases h
    · simp only [toRat?, mkRat_pow, hcarry, Option.some.injEq] at h
      rw [roundedRatio, hlimit, ← h]
    · cases h
    · simp only [toRat?, mkRat_pow, Option.some.injEq] at h
      rw [roundedRatio, ← h]

end Ratio

/-! ### Rationals -/

/-- A rational as it is rounded, however large it is. -/
def rounded (r : ℚ) : ℚ :=
  if r < 0 then -roundedRatio r.num.natAbs r.den else roundedRatio r.num.natAbs r.den

/-- Where a rational is in the range of the format, it is rounded to its rounded value. -/
theorem eq_rounded {r q : ℚ} (h : (ofRat r).toRat? = some q) : q = rounded r := by
  have hsign := eq_of_toRat?_ofRatio h
  rw [rounded]
  simpa using hsign

theorem rounded_neg (r : ℚ) : rounded (-r) = -rounded r := by
  rcases lt_trichotomy r 0 with hneg | rfl | hpos
  · rw [rounded, rounded, if_neg (by linarith), if_pos hneg, neg_neg, Rat.neg_num, Int.natAbs_neg,
      Rat.neg_den]
  · simp [rounded, roundedRatio_zero]
  · rw [rounded, rounded, if_pos (by linarith), if_neg (by linarith), Rat.neg_num, Int.natAbs_neg,
      Rat.neg_den]

theorem rounded_of_nonneg {r : ℚ} (h : 0 ≤ r) : rounded r = roundedRatio r.num.natAbs r.den :=
  if_neg h.not_gt

theorem rounded_nonneg {r : ℚ} (h : 0 ≤ r) : 0 ≤ rounded r := by
  rw [rounded_of_nonneg h, roundedRatio]
  positivity

/-- Rounding keeps the order. -/
theorem rounded_mono {r s : ℚ} (h : r ≤ s) : rounded r ≤ rounded s := by
  have hmono {r s : ℚ} (hr : 0 < r) (h : r ≤ s) : rounded r ≤ rounded s := by
    have hs : 0 < s := hr.trans_le h
    have hquotient {t : ℚ} (ht : 0 < t) : (t.num.natAbs : ℚ) / t.den = t := by
      rw [Nat.cast_natAbs, abs_of_pos (Rat.num_pos.mpr ht), Rat.num_div_den]
    have hnum {t : ℚ} (ht : 0 < t) : 0 < t.num.natAbs :=
      Int.natAbs_pos.mpr (Rat.num_pos.mpr ht).ne'
    rw [rounded_of_nonneg hr.le, rounded_of_nonneg hs.le]
    refine roundedRatio_mono (hnum hr) r.den_pos (hnum hs) s.den_pos ?_
    rwa [hquotient hr, hquotient hs]
  rcases lt_or_ge 0 r with hr | hr
  · exact hmono hr h
  · rcases lt_or_ge s 0 with hs | hs
    · -- below zero the order is that of the magnitudes, turned around
      have hmagnitudes : rounded (-s) ≤ rounded (-r) := hmono (by linarith) (by linarith)
      rwa [rounded_neg, rounded_neg, neg_le_neg_iff] at hmagnitudes
    · have hnonpos : 0 ≤ rounded (-r) := rounded_nonneg (by linarith)
      rw [rounded_neg] at hnonpos
      exact (neg_nonneg.mp hnonpos).trans (rounded_nonneg hs)

/-- A rational that is a number of the format. -/
def IsExact (r : ℚ) : Prop := (ofRat r).toRat? = some r

/-- A whole number of units of a power of two is a number of the format, if a significand can tell
how many there are. -/
theorem isExact_mul_pow {s : Int} {e : Nat} (hs : |s| < 2 ^ 53) (he : e ≤ 900) :
    IsExact (s * 2 ^ e) := by
  have hrounded : rounded (s * 2 ^ e) = s * 2 ^ e := by
    have hpos {k : Int} (hk : 0 < k) (hlimit : k < 2 ^ 53) : rounded (k * 2 ^ e) = k * 2 ^ e := by
      have hnum : ((k : ℚ) * 2 ^ e) = ((k.toNat * 2 ^ e : Nat) : ℚ) := by
        push_cast
        rw [← Int.cast_natCast, Int.toNat_of_nonneg hk.le]
      have hnat : 0 < k.toNat * 2 ^ e := Nat.mul_pos (by omega) (Nat.two_pow_pos e)
      rw [hnum, rounded_of_nonneg (Nat.cast_nonneg _), Rat.num_natCast, Rat.den_natCast,
        Int.natAbs_natCast]
      have hexact := roundedRatio_eq (e := e) hnat one_pos (k := k.toNat)
        (by simp only [significandLimit, Nat.pow_eq]; omega) (by simp only [minExponent]; omega)
        (by push_cast; simp)
      rw [hexact, Nat.cast_one, div_one]
    rw [abs_lt] at hs
    rcases lt_trichotomy s 0 with hneg | rfl | hs'
    · have hflip := hpos (neg_pos.mpr hneg) (by omega)
      rwa [Int.cast_neg, neg_mul, rounded_neg, neg_inj] at hflip
    · simp [rounded, roundedRatio_zero]
    · exact hpos hs' hs.2
  -- far from the end of the format, so the rounded value is the one it has
  have hwithin : |(s : ℚ) * 2 ^ e| ≤ 2 ^ (53 + e) := by
    rw [abs_mul, pow_add, abs_of_pos (by positivity : (0 : ℚ) < 2 ^ e)]
    gcongr
    exact_mod_cast hs.le
  obtain ⟨q, hq, -⟩ := within_ofRat hwithin (by omega)
  rw [IsExact, hq, eq_rounded hq, hrounded]

/-- A whole number that a significand can tell is a number of the format. -/
theorem isExact_int {n : Int} (hn : |n| < 2 ^ 53) : IsExact n := by
  simpa using isExact_mul_pow (e := 0) hn (by omega)

variable {x y : Binary64} {a b : ℚ}

/-- A difference is rounded once. -/
theorem toRat?_sub (hx : x.toRat? = some a) (hy : y.toRat? = some b) :
    (sub x y).toRat? = (ofRat (a - b)).toRat? := by
  rw [sub_eq_lift₂ hx hy, lift₂, hx, hy]

/-- The floor is the part before the point, or one less where something negative follows it. -/
theorem floor_eq_truncate (r : ℚ) :
    ⌊r⌋ = if r < truncate r then truncate r - 1 else truncate r := by
  rw [Int.floor_eq_iff]
  have hceil : (r.ceil : ℚ) < r + 1 := Rat.ceil_lt
  have hfloor : r < (r.floor + 1 : Int) := Rat.lt_floor_add_one r
  unfold truncate
  split <;> split <;> rename_i hcut <;> push_cast at hfloor ⊢
  · exact ⟨by linarith, by linarith⟩
  · exact ⟨not_lt.mp hcut, Rat.le_ceil.trans_lt (lt_add_one _)⟩
  · exact absurd (Rat.floor_le r) hcut.not_ge
  · exact ⟨Rat.floor_le r, hfloor⟩

/-- A whole quotient by a positive number is the floor of the quotient, where the multiples of the
divisor up to the dividend, and the whole numbers up to the quotient, are numbers of the format. -/
theorem toRat?_floorDiv {d : ℚ} (hx : x.toRat? = some a) (hd : 0 < d) (hdivisor : IsExact d)
    (hmultiples : ∀ n : Int, |(n : ℚ) * d| ≤ |a| → IsExact (n * d))
    (hwholes : ∀ n : Int, |(n : ℚ)| ≤ |a / d| + 1 → IsExact n) :
    (floorDiv x d).toRat? = some (⌊a / d⌋ : ℚ) := by
  have hfloor := floor_eq_truncate (a / d)
  have hcut := abs_truncate_le (a / d)
  have hexact : IsExact ⌊a / d⌋ := hwholes _ (abs_floor_le _)
  unfold floorDiv
  simp only [hx]
  generalize truncate (a / d) = t at hfloor hcut ⊢
  -- what the remainder leaves is so many times the divisor, and so the quotient is a whole number
  have hmultiple : IsExact (a - (a - d * t)) := by
    rw [sub_sub_cancel, mul_comm]
    refine hmultiples t ?_
    calc |(t : ℚ) * d| = |(t : ℚ)| * d := by rw [abs_mul, abs_of_pos hd]
      _ ≤ |a / d| * d := by gcongr
      _ = |a| := by rw [abs_div, abs_of_pos hd, div_mul_cancel₀ _ hd.ne']
  have hquotient : (lift₂ (· / ·) (ofRat (a - (a - d * t))) (ofRat d)).toRat? = some (t : ℚ) := by
    have hwhole : IsExact t := hwholes t (hcut.trans (le_add_of_nonneg_right zero_le_one))
    rw [lift₂, hmultiple, hdivisor]
    simp only [sub_sub_cancel, mul_div_cancel_left₀ _ hd.ne']
    exact hwhole
  -- lowered by one where something negative remains, it is the floor
  have hlower : (if a - d * t < 0 then
        sub (lift₂ (· / ·) (ofRat (a - (a - d * t))) (ofRat d)) (ofInt 1)
      else lift₂ (· / ·) (ofRat (a - (a - d * t))) (ofRat d)).toRat? =
        some (⌊a / d⌋ : ℚ) := by
    have hnegative : a - d * t < 0 ↔ a / d < t := by
      rw [sub_neg, div_lt_iff₀ hd, mul_comm]
    simp only [hnegative]
    split <;> rename_i hless
    · rw [if_pos hless] at hfloor
      have hone : (ofInt 1).toRat? = some ((1 : Int) : ℚ) := isExact_int (by norm_num)
      rw [toRat?_sub hquotient hone, ← Int.cast_sub, ← hfloor]
      exact hexact
    · rw [if_neg hless] at hfloor
      rw [hquotient, hfloor]
  -- which is whole already, so nothing is left to be rounded
  have hwhole : (ofInt (⌊a / d⌋ : ℚ).floor).toRat? = some (⌊a / d⌋ : ℚ) := by
    rw [Rat.floor_intCast]
    exact hexact
  have hrest := toRat?_sub hlower hwhole
  have hzero : (ofRat 0).toRat? = some 0 := by
    simpa [IsExact] using isExact_int (n := 0) (by norm_num)
  rw [sub_self, hzero] at hrest
  simp only [hlower, hrest, zero_mul, not_lt.mpr zero_le_one, if_false]
  exact hwhole

end Binary64

/-- The whole part of a whole number is that number. -/
theorem Number.wholePart_eq {x : Binary64} {n : Int} (h : x.toRat? = some (n : ℚ)) :
    wholePart x = .ok n := by
  have hcut : Binary64.truncate (n : ℚ) = n := by
    unfold Binary64.truncate
    split
    · exact Rat.ceil_intCast n
    · exact Rat.floor_intCast n
  cases x with
  | nan => cases h
  | infinite negative => cases h
  | finite negative significand exponent =>
    show Except.ok (Binary64.truncate
      ((Binary64.finite negative significand exponent).toRat?.getD 0)) = _
    rw [h, Option.getD_some, hcut]

namespace Age

open Binary64

/-- A length of whole days is a number of the format, up to many more of them than there are
ages. -/
theorem isExact_mul_millisPerDay {n : Int} (h : |(n : ℚ) * (millisPerDay : Nat)| ≤ 2 ^ 55) :
    IsExact (n * (millisPerDay : Nat)) := by
  have hday : ((millisPerDay : Nat) : ℚ) = 84375 * 2 ^ 10 := by norm_num [millisPerDay]
  have hsignificand : |n * 84375| < 2 ^ 53 := by
    rw [hday, ← mul_assoc, abs_mul, abs_of_pos (by positivity : (0 : ℚ) < 2 ^ 10)] at h
    have hless : |(n : ℚ) * 84375| < 2 ^ 53 := by linarith
    exact_mod_cast hless
  have hexact := isExact_mul_pow (e := 10) hsignificand (by omega)
  rwa [hday, ← mul_assoc, ← Int.cast_ofNat, ← Int.cast_mul]

/-- The age of a moment is the difference to the clock, rounded once, in whole days. -/
theorem between_eq_floor {moment : Binary64} {q : ℚ} {clock : Int}
    (hmoment : moment.toRat? = some q) (hq : |q| ≤ 2 ^ 53) (hclock : |clock| < 2 ^ 53) :
    between (.float moment) (.int clock) =
      .ok ⌊rounded (clock - q) / (millisPerDay : Nat)⌋ := by
  have hdifference : |(clock : ℚ) - q| ≤ 2 ^ 54 := by
    have hcast : |(clock : ℚ)| ≤ 2 ^ 53 := by exact_mod_cast hclock.le
    calc |(clock : ℚ) - q| ≤ |(clock : ℚ)| + |q| := abs_sub _ _
      _ ≤ 2 ^ 53 + 2 ^ 53 := add_le_add hcast hq
      _ = 2 ^ 54 := by norm_num
  obtain ⟨v, hv, hbound⟩ := within_ofRat hdifference (by omega)
  have hexact : (ofInt clock).toRat? = some (clock : ℚ) := isExact_int hclock
  have hdays : (floorDiv (sub (ofInt clock) moment) (millisPerDay : Nat)).toRat? =
      some (⌊v / (millisPerDay : Nat)⌋ : ℚ) := by
    have hday : (1 : ℚ) ≤ (millisPerDay : Nat) := by norm_num [millisPerDay]
    refine toRat?_floorDiv ((toRat?_sub hexact hmoment).trans hv) (by linarith)
      toRat?_millisPerDay (fun n hn => isExact_mul_millisPerDay (hn.trans hbound)) fun n hn => ?_
    -- there are fewer days than milliseconds
    have hfew : |v / (millisPerDay : Nat)| ≤ 2 ^ 52 := by
      have hmany : (2 : ℚ) ^ (54 + 1) ≤ 2 ^ 52 * (millisPerDay : Nat) := by norm_num [millisPerDay]
      rw [abs_div, abs_of_pos (by linarith : (0 : ℚ) < (millisPerDay : Nat)),
        div_le_iff₀ (by linarith)]
      exact hbound.trans hmany
    have hless : |(n : ℚ)| < 2 ^ 53 := by linarith
    exact isExact_int (by exact_mod_cast hless)
  rw [between, Number.sub_float (Number.toFloat_of_toRat? hexact), ← eq_rounded hv]
  exact Number.wholePart_eq hdays

/-- A moment does not get younger. -/
theorem between_mono {moment : Binary64} {q : ℚ} {clock clock' : Int}
    (hmoment : moment.toRat? = some q) (hq : |q| ≤ 2 ^ 53) (hclock : |clock| < 2 ^ 53)
    (hclock' : |clock'| < 2 ^ 53) (h : clock ≤ clock') :
    ∃ days days', between (.float moment) (.int clock) = .ok days ∧
      between (.float moment) (.int clock') = .ok days' ∧ days ≤ days' := by
  refine ⟨_, _, between_eq_floor hmoment hq hclock, between_eq_floor hmoment hq hclock', ?_⟩
  have hdifference : (clock : ℚ) - q ≤ clock' - q := by
    have hcast : (clock : ℚ) ≤ clock' := by exact_mod_cast h
    linarith
  have hrounded := rounded_mono hdifference
  apply Int.floor_mono
  gcongr

end Age

end DebtSurvey
