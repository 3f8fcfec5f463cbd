import DebtSurvey.Age
import Mathlib.Algebra.Order.Field.Power
import Mathlib.Algebra.Order.Floor.Ring
import Mathlib.Data.Nat.Cast.Order.Field
import Mathlib.Data.Rat.Floor
import Mathlib.Tactic.FieldSimp
import Mathlib.Tactic.Linarith
import Mathlib.Tactic.Positivity
import Mathlib.Tactic.Ring

/-!
# Magnitudes of rounded numbers

Arithmetic on binary floating point numbers stays finite as long as it stays far from the end of the
format. How far is followed by one bound, a power of two, that every operation raises a little.

## Main results

* `Binary64.within_ofRat`: rounding at most doubles the bound.
* `Binary64.Within.scale`: a product adds the bounds.
* `Number.sub_float`: the difference that an age is taken of.
-/

namespace DebtSurvey

namespace Binary64

/-- A number is finite, and its magnitude is at most a power of two. -/
def Within (k : Nat) (x : Binary64) : Prop := ∃ q, x.toRat? = some q ∧ |q| ≤ 2 ^ k

variable {k m : Nat} {x y : Binary64}

/-- The two halves of a power, one for exponents on either side of zero. -/
theorem pow_toNat (exponent : Int) :
    ((Nat.pow 2 exponent.toNat : Nat) : ℚ) =
      2 ^ exponent * (Nat.pow 2 (-exponent).toNat : Nat) := by
  cases exponent with
  | ofNat n => simp
  | negSucc n => simp [zpow_negSucc]

/-- The magnitude of a finite number as a power. -/
theorem mkRat_pow (significand : Nat) (exponent : Int) :
    mkRat (significand * Nat.pow 2 exponent.toNat) (Nat.pow 2 (-exponent).toNat) =
      (significand : ℚ) * 2 ^ exponent := by
  have hpos : ((Nat.pow 2 (-exponent).toNat : Nat) : ℚ) ≠ 0 := by simp
  rw [Rat.mkRat_eq_div, Int.cast_mul, Int.cast_natCast, Int.cast_natCast, pow_toNat, ← mul_assoc,
    mul_div_cancel_right₀ _ hpos]

/-- A finite number is within a bound when its magnitude is. -/
theorem within_finite (negative : Bool) {significand : Nat} {exponent : Int}
    (h : (significand : ℚ) * 2 ^ exponent ≤ 2 ^ k) :
    Within k (.finite negative significand exponent) := by
  have hpos : (0 : ℚ) ≤ (significand : ℚ) * 2 ^ exponent := by positivity
  have habs : |(significand : ℚ) * 2 ^ exponent| ≤ 2 ^ k := by rwa [abs_of_nonneg hpos]
  simp only [Within, toRat?, mkRat_pow]
  cases negative with
  | false => exact ⟨_, rfl, habs⟩
  | true => exact ⟨_, rfl, by rwa [if_pos rfl, abs_neg]⟩

/-- A bound may be raised. -/
theorem Within.mono (h : Within k x) (hkm : k ≤ m) : Within m x := by
  obtain ⟨q, hq, hle⟩ := h
  exact ⟨q, hq, hle.trans (pow_le_pow_right₀ one_le_two hkm)⟩

/-- A quotient rounds to at most one more than its floor. -/
theorem roundDiv_le (num den : Nat) : roundDiv num den ≤ num / den + 1 := by
  unfold roundDiv
  simp only
  split_ifs <;> omega

/-- A quotient of at most a power of two has at most its exponent. -/
theorem floorLog2_le {num den : Nat} (h : num ≤ 2 ^ k * den) : floorLog2 num den ≤ k := by
  -- it is enough to compare logarithms; the correction only makes the result smaller
  have hlog : num.log2 ≤ k + den.log2 := by
    by_cases hnum : num = 0
    · simp [hnum]
    · refine Nat.lt_succ_iff.mp ((Nat.log2_lt hnum).mpr ?_)
      calc num ≤ 2 ^ k * den := h
        _ < 2 ^ k * 2 ^ (den.log2 + 1) := by
          exact Nat.mul_lt_mul_of_pos_left Nat.lt_log2_self (by positivity)
        _ = 2 ^ (k + den.log2).succ := by rw [← pow_add]; rfl
  unfold floorLog2
  simp only
  split <;> omega

/-- A significand by its power is at most the bound of what was rounded, doubled. -/
theorem roundDiv_mul_le {num den : Nat} {e : Int} (hden : 0 < den) (h : num ≤ 2 ^ k * den)
    (he : e ≤ k) :
    (roundDiv (num * Nat.pow 2 (-e).toNat) (den * Nat.pow 2 e.toNat) : ℚ) * 2 ^ e ≤
      2 ^ (k + 1) := by
  have hround : (roundDiv (num * Nat.pow 2 (-e).toNat) (den * Nat.pow 2 e.toNat) : ℚ) ≤
      (num * Nat.pow 2 (-e).toNat : Nat) / (den * Nat.pow 2 e.toNat : Nat) + 1 :=
    calc (roundDiv (num * Nat.pow 2 (-e).toNat) (den * Nat.pow 2 e.toNat) : ℚ)
        ≤ ((num * Nat.pow 2 (-e).toNat / (den * Nat.pow 2 e.toNat) + 1 : Nat) : ℚ) := by
          exact_mod_cast roundDiv_le _ _
      _ ≤ (num * Nat.pow 2 (-e).toNat : Nat) / (den * Nat.pow 2 e.toNat : Nat) + 1 := by
          rw [Nat.cast_add, Nat.cast_one]
          exact add_le_add_left Nat.cast_div_le 1
  have hpower : (2 : ℚ) ^ e ≤ 2 ^ k := by
    rw [← zpow_natCast]
    exact zpow_le_zpow_right₀ one_le_two he
  have hquotient : (num : ℚ) / den ≤ 2 ^ k := by
    rw [div_le_iff₀ (by exact_mod_cast hden)]
    exact_mod_cast h
  have hhalf : ((Nat.pow 2 (-e).toNat : Nat) : ℚ) ≠ 0 := by simp
  have hscaled :
      ((num * Nat.pow 2 (-e).toNat : Nat) : ℚ) / (den * Nat.pow 2 e.toNat : Nat) * 2 ^ e =
        num / den := by
    have hden' : (den : ℚ) ≠ 0 := by exact_mod_cast hden.ne'
    rw [Nat.cast_mul, Nat.cast_mul, pow_toNat e]
    field_simp
  calc (roundDiv (num * Nat.pow 2 (-e).toNat) (den * Nat.pow 2 e.toNat) : ℚ) * 2 ^ e
      ≤ ((num * Nat.pow 2 (-e).toNat : Nat) / (den * Nat.pow 2 e.toNat : Nat) + 1) * 2 ^ e :=
        mul_le_mul_of_nonneg_right hround (by positivity)
    _ = num / den + 2 ^ e := by rw [add_mul, hscaled, one_mul]
    _ ≤ 2 ^ k + 2 ^ k := add_le_add hquotient hpower
    _ = 2 ^ (k + 1) := by ring

/-- Rounding a quotient of at most a power of two, not too near the end of the format, at most
doubles the bound. -/
theorem within_ofRatio (negative : Bool) {num den : Nat} (hden : 0 < den) (h : num ≤ 2 ^ k * den)
    (hk : k ≤ 1000) : Within (k + 1) (ofRatio negative num den) := by
  unfold ofRatio
  split
  · exact within_finite negative (by simp)
  · have hlog := floorLog2_le h
    -- the exponent is at most that of the bound, and so far below the greatest of the format
    generalize hexp : max (floorLog2 num den - 52) minExponent = e
    have hek : e ≤ k := by simp only [minExponent] at hexp; omega
    have hmax : e < maxExponent := by simp only [minExponent, maxExponent] at hexp ⊢; omega
    generalize hsig : roundDiv (num * Nat.pow 2 (-e).toNat) (den * Nat.pow 2 e.toNat) = s
    have hvalue : (s : ℚ) * 2 ^ e ≤ 2 ^ (k + 1) := by
      rw [← hsig]
      exact roundDiv_mul_le hden h hek
    simp only [hsig]
    -- a significand that has reached the limit is halved, and its exponent raised
    split
    · rename_i hlimit
      rw [if_neg (by omega)]
      refine within_finite negative (le_trans (le_of_eq ?_) hvalue)
      rw [hlimit, zpow_add₀ two_ne_zero, zpow_one, significandLimit]
      push_cast
      ring
    · rw [if_neg (by omega)]
      exact within_finite negative hvalue

/-- The magnitude of a rational as a quotient. -/
theorem natAbs_num_div_den (r : ℚ) : (r.num.natAbs : ℚ) / r.den = |r| := by
  rw [Nat.cast_natAbs, Int.cast_abs, ← Nat.abs_cast r.den, ← abs_div, Rat.num_div_den]

/-- Rounding a rational of at most a power of two at most doubles the bound. -/
theorem within_ofRat {r : ℚ} (h : |r| ≤ 2 ^ k) (hk : k ≤ 1000) : Within (k + 1) (ofRat r) := by
  refine within_ofRatio _ r.den_pos ?_ hk
  rw [← natAbs_num_div_den, div_le_iff₀ (by exact_mod_cast r.den_pos)] at h
  exact_mod_cast h

/-- An operation on exact values is within a bound when its exact result is. -/
theorem within_lift₂ {op : ℚ → ℚ → ℚ} {a b : ℚ} (hx : x.toRat? = some a) (hy : y.toRat? = some b)
    (h : |op a b| ≤ 2 ^ k) (hk : k ≤ 1000) : Within (k + 1) (lift₂ op x y) := by
  rw [lift₂, hx, hy]
  exact within_ofRat h hk

/-- The difference of finite numbers is that of their exact values, rounded. -/
theorem sub_eq_lift₂ {a b : ℚ} (hx : x.toRat? = some a) (hy : y.toRat? = some b) :
    sub x y = lift₂ (· - ·) x y := by
  cases x with
  | nan => cases hx
  | infinite negative => cases hx
  | finite negative significand exponent =>
    cases y with
    | nan => cases hy
    | infinite negative => cases hy
    | finite negative significand exponent => rfl

/-- The product of a finite number with a rational is that with the rational as a number. -/
theorem scale_eq_lift₂ {a c : ℚ} (hx : x.toRat? = some a) :
    scale c x = lift₂ (· * ·) x (ofRat c) := by
  cases x <;> first | rfl | cases hx

/-- A product with a rational adds the bounds. -/
theorem Within.scale {c : ℚ} (hx : Within k x) (hc : Within m (ofRat c)) (hk : k + m ≤ 1000) :
    Within (k + m + 1) (scale c x) := by
  obtain ⟨a, hxa, ha⟩ := hx
  obtain ⟨b, hcb, hb⟩ := hc
  rw [scale_eq_lift₂ hxa]
  refine within_lift₂ hxa hcb ?_ hk
  rw [abs_mul, pow_add]
  exact mul_le_mul ha hb (abs_nonneg b) (by positivity)

/-- The part before the point is no further from zero. -/
theorem abs_truncate_le (r : ℚ) : |(truncate r : ℚ)| ≤ |r| := by
  unfold truncate
  -- negative numbers are cut upward, all others downward
  split
  · rename_i hneg
    have hceil : r.ceil ≤ 0 := Rat.ceil_le_iff.mpr (by exact_mod_cast hneg.le)
    rw [abs_of_nonpos (by exact_mod_cast hceil), abs_of_neg hneg]
    exact neg_le_neg Rat.le_ceil
  · rename_i hneg
    have hpos : 0 ≤ r := not_lt.mp hneg
    have hfloor : 0 ≤ r.floor := Rat.le_floor_iff.mpr (by exact_mod_cast hpos)
    rw [abs_of_nonneg (by exact_mod_cast hfloor), abs_of_nonneg hpos]
    exact Rat.floor_le r

/-- The whole number below a rational is at most one further from zero. -/
theorem abs_floor_le (q : ℚ) : |(q.floor : ℚ)| ≤ |q| + 1 := by
  have hle := Rat.floor_le q
  have hlt := Rat.lt_floor_add_one q
  rw [Int.cast_add, Int.cast_one] at hlt
  rw [abs_le]
  constructor
  · linarith [neg_abs_le q]
  · linarith [le_abs_self q]

/-- What the remainder leaves is no further from zero than the dividend. -/
theorem abs_sub_remainder_le (v : ℚ) {d : ℚ} (hd : 0 < d) :
    |v - (v - d * truncate (v / d))| ≤ |v| := by
  rw [sub_sub_cancel, abs_mul, abs_of_pos hd]
  calc d * |(truncate (v / d) : ℚ)| ≤ d * |v / d| :=
        mul_le_mul_of_nonneg_left (abs_truncate_le _) hd.le
    _ = |v| := by rw [abs_div, abs_of_pos hd, mul_div_cancel₀ _ hd.ne']

end Binary64

namespace Number

open Binary64

variable {n : Int} {x y : Binary64} {q : ℚ}

/-- An integer that rounds to a finite number is that number. -/
theorem toFloat_of_toRat? (h : (ofInt n).toRat? = some q) : (int n).toFloat = .ok (ofInt n) := by
  rw [toFloat]
  cases hn : ofInt n with
  | infinite negative =>
    rw [hn] at h
    cases h
  | _ => rfl

/-- A finite number has a whole part. -/
theorem exists_wholePart (h : x.toRat? = some q) : ∃ n, wholePart x = .ok n := by
  cases x with
  | nan => cases h
  | infinite negative => cases h
  | finite negative significand exponent => exact ⟨_, rfl⟩

/-- The difference of an integer and a floating point number, if the integer is one as well. -/
theorem sub_float (h : (int n).toFloat = .ok y) :
    (int n).sub (.float x) = .ok (.float (Binary64.sub y x)) := by
  show ((int n).toFloat >>= fun z => Except.ok (Number.float (Binary64.sub z x))) = _
  rw [h]
  rfl

end Number

namespace Age

open Binary64

/-- The length of a day is a number of the format. -/
theorem toRat?_millisPerDay :
    (ofRat (millisPerDay : Nat)).toRat? = some ((millisPerDay : Nat) : ℚ) := by
  decide +kernel

end Age

end DebtSurvey
