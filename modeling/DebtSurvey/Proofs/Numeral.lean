import DebtSurvey.Text.Digit
import Mathlib.Data.Nat.Digits.Defs

/-!
# Numerals

An integer is written in the digits of ASCII, and read in those of any script, with blanks, a sign
and underscores. What was written is read back, as long as it has no more digits than an integer
read from text may have.

## Main results

* `Text.natOfDigits?_digitsOf`: a natural number is read back from its digits.
* `Text.toInt?_ofInt`: an integer is read back from its numeral.
-/

namespace DebtSurvey.Text

/-- The decimal digits of a natural number, as values. -/
def digitsOf (n : Nat) : List Nat := (ofNat n).map fun c => c.toNat - 48

/-- The numeral of a natural number has digits of ASCII only. -/
theorem isDigit_of_mem_ofNat {n : Nat} {c : Char} (h : c ∈ ofNat n) : c.isDigit :=
  Nat.isDigit_of_mem_toDigits (by omega) (by omega) h

/-- Where the digits of ASCII stand. -/
theorem toNat_of_isDigit {c : Char} (h : c.isDigit) : 48 ≤ c.toNat ∧ c.toNat ≤ 57 := by
  simpa [Char.isDigit, UInt32.le_iff_toNat_le] using h

/-- A digit of ASCII has its place among the digits as its value. -/
theorem digitValue?_of_isDigit {c : Char} (h : c.isDigit) :
    digitValue? c = some (c.toNat - 48) := by
  have hrange := toNat_of_isDigit h
  rw [digitValue?, if_pos (by omega), if_pos h]

/-- A digit of ASCII is a digit. -/
theorem isDigit_of_ascii {c : Char} (h : c.isDigit) : isDigit c := by
  rw [isDigit, digitValue?_of_isDigit h, Option.isSome_some]

/-- The digits of a numeral have the values of its number's digits. -/
theorem filterMap_digitValue?_ofNat (n : Nat) : (ofNat n).filterMap digitValue? = digitsOf n := by
  have hall : ∀ t : Text, (∀ c ∈ t, c.isDigit) →
      t.filterMap digitValue? = t.map fun c => c.toNat - 48 := by
    intro t ht
    induction t with
    | nil => rfl
    | cons c rest ih =>
      rw [List.forall_mem_cons] at ht
      rw [List.filterMap_cons_some (digitValue?_of_isDigit ht.1), ih ht.2, List.map_cons]
  exact hall _ fun c hc => isDigit_of_mem_ofNat hc

/-- The digits of a number spell the number. -/
theorem digitsToNat_digitsOf (n : Nat) : digitsToNat (digitsOf n) = n := by
  rw [digitsToNat, digitsOf, List.foldl_map]
  -- reading digits is the same fold as the one that undoes writing them
  exact Nat.ofDigitChars_ten_toDigits

/-- A number of not too many digits is read back from them. -/
theorem natOfDigits?_digitsOf {n : Nat} (h : (ofNat n).length ≤ digitLimit) :
    natOfDigits? (digitsOf n) = some n := by
  rw [natOfDigits?, if_pos (by rwa [digitsOf, List.length_map]), digitsToNat_digitsOf]

/-- A run of digits of ASCII is a magnitude as it stands. -/
theorem magnitudeDigits?_of_ascii {t : Text} (hne : t ≠ []) (ht : ∀ c ∈ t, c.isDigit) :
    magnitudeDigits? t = some (t.map fun c => c.toNat - 48) := by
  induction t with
  | nil => exact absurd rfl hne
  | cons c rest ih =>
    rw [List.forall_mem_cons] at ht
    have hc := digitValue?_of_isDigit ht.1
    cases rest with
    | nil => simp [magnitudeDigits?, hc]
    | cons next rest =>
      -- the character after a digit is a digit, and so no underscore
      have hnext : next ≠ '_' := by
        rintro rfl
        exact absurd (ht.2 '_' (by simp)) (by decide)
      rw [magnitudeDigits?, hc, ih (by simp) ht.2]
      · rfl
      · simp
      · intro tail htail
        exact hnext (List.cons.inj htail).1

/-- The numeral of a natural number is a magnitude as it stands. -/
theorem magnitudeDigits?_ofNat (n : Nat) : magnitudeDigits? (ofNat n) = some (digitsOf n) :=
  magnitudeDigits?_of_ascii Nat.toDigits_ne_nil fun _ hc => isDigit_of_mem_ofNat hc

/-- A text whose characters are not blank has no blanks around it. -/
theorem dropBlanks_of_forall {t : Text} (h : ∀ c ∈ t, isNumberBlank c = false) :
    ((t.dropWhile isNumberBlank).reverse.dropWhile isNumberBlank).reverse = t := by
  have hfront : t.dropWhile isNumberBlank = t := by
    cases t with
    | nil => rfl
    | cons c rest => rw [List.dropWhile_cons_of_neg (by rw [h c (by simp)]; decide)]
  have hback : t.reverse.dropWhile isNumberBlank = t.reverse := by
    cases hr : t.reverse with
    | nil => rfl
    | cons c rest =>
      have hc : c ∈ t := by
        rw [← List.mem_reverse, hr]
        exact List.mem_cons_self
      rw [List.dropWhile_cons_of_neg (by rw [h c hc]; decide)]
  rw [hfront, hback, List.reverse_reverse]

/-- A digit of ASCII is not blank. -/
theorem isBlank_of_isDigit {c : Char} (h : c.isDigit) : isBlank c = false := by
  have hrange := toNat_of_isDigit h
  simp only [isBlank, Bool.or_eq_false_iff, Bool.and_eq_false_iff, decide_eq_false_iff_not,
    beq_eq_false_iff_ne]
  omega

/-- A digit of ASCII does not stand around an integer. -/
theorem isNumberBlank_of_isDigit {c : Char} (h : c.isDigit) : isNumberBlank c = false := by
  rw [isNumberBlank, isBlank_of_isDigit h, Bool.false_and]

/-- An integer of not too many digits is read back from its numeral. -/
theorem toInt?_ofInt {n : Int} (h : (ofNat n.natAbs).length ≤ digitLimit) :
    toInt? (ofInt n) = some n := by
  cases n with
  | ofNat n =>
    have hbody := dropBlanks_of_forall (t := ofNat n) fun c hc =>
      isNumberBlank_of_isDigit (isDigit_of_mem_ofNat hc)
    -- the numeral starts with a digit, which is no sign
    have hsign : ∀ sign rest, ofNat n = sign :: rest → sign ≠ '-' ∧ sign ≠ '+' := by
      intro sign rest hn
      have hdigit : sign.isDigit := isDigit_of_mem_ofNat (hn ▸ List.mem_cons_self)
      constructor <;> (rintro rfl; exact absurd hdigit (by decide))
    have hvalue : natOfDigits? (digitsOf n) = some n := natOfDigits?_digitsOf h
    rw [ofInt, toInt?, hbody]
    split
    · rename_i rest hn
      exact absurd rfl (hsign _ _ hn).1
    · rename_i rest hn
      exact absurd rfl (hsign _ _ hn).2
    · rw [magnitudeDigits?_ofNat, Option.bind_eq_bind, Option.bind_some, hvalue]
      rfl
  | negSucc n =>
    have hbody := dropBlanks_of_forall (t := '-' :: ofNat (n + 1)) <| by
      rw [List.forall_mem_cons]
      exact ⟨by decide, fun c hc => isNumberBlank_of_isDigit (isDigit_of_mem_ofNat hc)⟩
    have hvalue : natOfDigits? (digitsOf (n + 1)) = some (n + 1) := natOfDigits?_digitsOf h
    rw [ofInt, toInt?, hbody]
    simp only
    rw [magnitudeDigits?_ofNat, Option.bind_eq_bind, Option.bind_some, hvalue]
    rfl

end DebtSurvey.Text
