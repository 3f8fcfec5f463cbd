import DebtSurvey.Json.Reader
import DebtSurvey.Json.Writer
import DebtSurvey.Proofs.Numeral

/-!
# Strings and integers of a document

A string is written in ASCII. Reading what was written gives back the text and stops behind the
closing quote: an escape is read as the code units that it was written for, and the two halves of a
character beyond the basic plane are joined again. An integer is read back from its numeral if that
is not too long, and if what follows does not go on with it.

## Main results

* `Json.readUnits?_hexEscape`: a code unit is read back from its escape.
* `Json.readString?_escapePoint`: a character of a string is read back, whatever follows it.
* `Json.readString?_quoted`: a text is read back from its string.
* `Json.readSimple?_ofInt`: an integer is read back from its numeral.
-/

namespace DebtSurvey.Json

/-! ### Code units -/

theorem hexDigit?_digitChar {n : Nat} (h : n < 16) : hexDigit? n.digitChar = some n := by
  have hall : ∀ m : Fin 16, hexDigit? (Nat.digitChar m) = some m.val := by decide
  exact hall ⟨n, h⟩

/-- The last of several padded digits stands behind the padded others. -/
theorem padLeft_toDigits_succ (width n : Nat) :
    Text.padLeft (width + 2) '0' (Nat.toDigits 16 n) =
      Text.padLeft (width + 1) '0' (Nat.toDigits 16 (n / 16)) ++ [(n % 16).digitChar] := by
  rcases Nat.lt_or_ge n 16 with hn | hn
  · rw [Nat.div_eq_of_lt hn, Nat.mod_eq_of_lt hn, Nat.toDigits_of_lt_base hn, Nat.toDigits_zero]
    simp [Text.padLeft, List.replicate_succ']
  · rw [Nat.toDigits_of_base_le (by decide) hn]
    simp [Text.padLeft]

theorem padLeft_toDigits {n : Nat} (h : n < 0x10000) :
    Text.padLeft 4 '0' (Nat.toDigits 16 n) =
      [(n / 16 / 16 / 16).digitChar, (n / 16 / 16 % 16).digitChar, (n / 16 % 16).digitChar,
        (n % 16).digitChar] := by
  rw [padLeft_toDigits_succ, padLeft_toDigits_succ, padLeft_toDigits_succ,
    Nat.toDigits_of_lt_base (by omega)]
  rfl

/-- A code unit is read back from its escape. -/
theorem readUnits?_hexEscape {n : Nat} (h : n < 0x10000) (t : Text) :
    readUnits? (hexEscape n ++ t) = (readUnits? t).map (Prod.map ([.inr n] ++ ·) id) := by
  -- the digits are remainders by sixteen, and the unit is put together from them
  have hunit : hexUnit? (n / 16 / 16 / 16).digitChar (n / 16 / 16 % 16).digitChar
      (n / 16 % 16).digitChar (n % 16).digitChar = some n := by
    rw [hexUnit?, hexDigit?_digitChar (by omega), hexDigit?_digitChar (by omega),
      hexDigit?_digitChar (by omega), hexDigit?_digitChar (by omega)]
    show some _ = some n
    congr 1
    omega
  rw [hexEscape, padLeft_toDigits h]
  simp only [List.cons_append, List.nil_append]
  rw [readUnits?, hunit]
  cases readUnits? t <;> rfl

/-- A short escape is read as the character it stands for. -/
theorem readUnits?_short {letter c : Char} (h : shortEscape? letter = some c) (t : Text) :
    readUnits? (['\\', letter] ++ t) = (readUnits? t).map (Prod.map ([.inl c] ++ ·) id) := by
  have hletter : letter ≠ 'u' := by
    rintro rfl
    cases h
  rw [List.cons_append, List.cons_append, List.nil_append, readUnits?]
  · rw [h]
    cases readUnits? t <;> rfl
  · intro a b c d rest hu
    exact absurd hu hletter

/-- A printable character is read as itself. -/
theorem readUnits?_plain {c : Char} (hquote : c ≠ '"') (hbackslash : c ≠ '\\')
    (hprintable : 32 ≤ c.toNat) (t : Text) :
    readUnits? ([c] ++ t) = (readUnits? t).map (Prod.map ([.inl c] ++ ·) id) := by
  rw [List.cons_append, List.nil_append, readUnits?, if_neg (by simp [hbackslash]; omega)]
  · cases readUnits? t <;> rfl
  · exact hquote
  · exact fun _ _ _ _ _ h => absurd h hbackslash
  · exact fun _ _ h => absurd h hbackslash

/-! ### Characters -/

/-- What is read as some code units is read as a character if these are joined to it. -/
theorem readString?_append {piece : Text} {units : List (Char ⊕ Nat)} {c : Char}
    (hread : ∀ t, readUnits? (piece ++ t) = (readUnits? t).map (Prod.map (units ++ ·) id))
    (hjoin : ∀ others, joinPairs (units ++ others) = .scalar c :: joinPairs others) (t : Text) :
    readString? (piece ++ t) = (readString? t).map (Prod.map (.scalar c :: ·) id) := by
  rw [readString?, readString?, hread]
  cases readUnits? t with
  | none => rfl
  | some r => exact congrArg some (Prod.ext (hjoin r.1) rfl)

theorem toNat_isValidChar (c : Char) : c.toNat.isValidChar := c.valid

/-- A character of the basic plane is no half of a pair, whatever follows it. -/
theorem joinPairs_inr (c : Char) (others : List (Char ⊕ Nat)) :
    joinPairs (.inr c.toNat :: others) = .scalar c :: joinPairs others := by
  have hpoint : CodePoint.ofNat? c.toNat = some (.scalar c) := by
    rw [CodePoint.ofNat?, dif_pos (toNat_isValidChar c)]
    rfl
  -- no character has the number of a surrogate, so it starts no pair
  have hhalf : ¬(0xd800 ≤ c.toNat ∧ c.toNat < 0xdc00) := by
    have := toNat_isValidChar c
    simp only [Nat.isValidChar] at this
    omega
  cases others with
  | nil => simp [joinPairs, hpoint]
  | cons next others =>
    cases next with
    | inl next => simp [joinPairs, hpoint]
    | inr low => rw [joinPairs, if_neg fun h => hhalf ⟨h.1, h.2.1⟩, hpoint, Option.getD_some]

/-- The two halves of a character beyond the basic plane are joined. -/
theorem joinPairs_halves {c : Char} (h : 0x10000 ≤ c.toNat) (others : List (Char ⊕ Nat)) :
    joinPairs ([.inr (0xd800 + (c.toNat - 0x10000) / 0x400),
      .inr (0xdc00 + (c.toNat - 0x10000) % 0x400)] ++ others) = .scalar c :: joinPairs others := by
  have hvalid := toNat_isValidChar c
  simp only [Nat.isValidChar] at hvalid
  have hvalue : 0x10000 + (0xd800 + (c.toNat - 0x10000) / 0x400 - 0xd800) * 0x400 +
      (0xdc00 + (c.toNat - 0x10000) % 0x400 - 0xdc00) = c.toNat := by omega
  rw [List.cons_append, List.cons_append, List.nil_append, joinPairs, if_pos (by omega), hvalue,
    Char.ofNat_toNat]

theorem readString?_escapeValue (c : Char) (t : Text) :
    readString? (escapeValue c.toNat ++ t) =
      (readString? t).map (Prod.map (.scalar c :: ·) id) := by
  rw [escapeValue]
  split
  · rename_i hbasic
    exact readString?_append (readUnits?_hexEscape hbasic) (joinPairs_inr c) t
  · rename_i hbeyond
    have hvalid := toNat_isValidChar c
    simp only [Nat.isValidChar] at hvalid
    refine readString?_append (fun t => ?_) (joinPairs_halves (Nat.le_of_not_lt hbeyond)) t
    rw [List.append_assoc, readUnits?_hexEscape (by omega), readUnits?_hexEscape (by omega),
      Option.map_map]
    rfl

/-- A character of a string is read back, whatever follows it. -/
theorem readString?_escapePoint (c : Char) (t : Text) :
    readString? (escapePoint (.scalar c) ++ t) =
      (readString? t).map (Prod.map (.scalar c :: ·) id) := by
  unfold escapePoint
  split
  case h_9 h => cases h
  case h_8 hquote hbackslash _ _ _ _ _ h =>
    obtain rfl := CodePoint.scalar.inj h
    split
    · rename_i hprintable
      exact readString?_append (readUnits?_plain hquote hbackslash hprintable.1) (fun _ => rfl) t
    · exact readString?_escapeValue c t
  all_goals
    rename_i h
    obtain rfl := CodePoint.scalar.inj h
    -- a short escape in each of the cases that are left
    exact readString?_append (readUnits?_short (by decide)) (fun _ => rfl) t

/-- A text is read back from its string behind the opening quote, with what follows the string. -/
theorem readString?_quoted (s rest : Text) :
    readString? ((DocText.ofText s).flatMap escapePoint ++ '"' :: rest) =
      some (DocText.ofText s, rest) := by
  induction s with
  | nil => rfl
  | cons c s ih =>
    show readString? ((escapePoint (.scalar c) ++ (DocText.ofText s).flatMap escapePoint) ++ _) = _
    rw [List.append_assoc, readString?_escapePoint, ih]
    rfl

/-! ### Integers -/

/-- What can stand behind a number: nothing that would go on with it. -/
def EndsNumber (t : Text) : Prop :=
  ∀ c, t.head? = some c → c.isDigit = false ∧ c ≠ '.' ∧ c ≠ 'e' ∧ c ≠ 'E'

/-- An integer of not too many digits to be read. -/
def Fits (n : Int) : Prop := (Text.ofNat n.natAbs).length ≤ digitLimit

instance (n : Int) : Decidable (Fits n) := inferInstanceAs (Decidable (_ ≤ _))

theorem decimal_ofNat (n : Nat) : decimal (Text.ofNat n) = n := Nat.ofDigitChars_ten_toDigits

/-- A numeral starts with a digit. -/
theorem exists_ofNat_eq_cons (n : Nat) : ∃ c t, Text.ofNat n = c :: t ∧ c.isDigit := by
  obtain ⟨c, t, hdigits⟩ := List.exists_cons_of_ne_nil (Nat.toDigits_ne_nil (n := n) (b := 10))
  have hc : c ∈ Text.ofNat n := by
    rw [Text.ofNat, hdigits]
    exact List.mem_cons_self
  exact ⟨c, t, hdigits, Text.isDigit_of_mem_ofNat hc⟩

/-- Only the numeral of zero starts with a zero. -/
theorem eq_zero_of_ofNat_eq_cons {n : Nat} {rest : Text} (h : Text.ofNat n = '0' :: rest) :
    n = 0 := by
  induction n using Nat.strongRecOn generalizing rest with
  | ind n ih =>
    rcases Nat.lt_or_ge n 10 with hn | hn
    · rw [Text.ofNat, Nat.toDigits_of_lt_base hn] at h
      exact Nat.digitChar_eq_zero.mp (List.cons.inj h).1
    · rw [Text.ofNat, Nat.toDigits_of_base_le (by decide) hn] at h
      -- the first digit is that of the number without its last one, which is not zero
      obtain ⟨first, others, hdigits, -⟩ := exists_ofNat_eq_cons (n / 10)
      rw [← Text.ofNat, hdigits, List.cons_append] at h
      rw [(List.cons.inj h).1] at hdigits
      have := ih (n / 10) (by omega) hdigits
      omega

section Integer

variable {rest : Text}

/-- The digits of a numeral end where it ends. -/
theorem takeWhile_ofNat (hrest : EndsNumber rest) (n : Nat) :
    (Text.ofNat n ++ rest).takeWhile Char.isDigit = Text.ofNat n ∧
      (Text.ofNat n ++ rest).dropWhile Char.isDigit = rest := by
  have hdigits : ∀ c ∈ Text.ofNat n, c.isDigit := fun _ => Text.isDigit_of_mem_ofNat
  rw [List.takeWhile_append_of_pos hdigits, List.dropWhile_append_of_pos hdigits]
  cases rest with
  | nil => simp
  | cons c rest => simp [(hrest c rfl).1]

theorem readWhole?_ofNat (hrest : EndsNumber rest) (n : Nat) :
    readWhole? (Text.ofNat n ++ rest) = some (Text.ofNat n, rest) := by
  obtain ⟨htake, hdrop⟩ := takeWhile_ofNat hrest n
  unfold readWhole?
  split
  · -- a numeral that starts with a zero is that of zero, so nothing is left of it
    rename_i tail hzero
    obtain ⟨first, others, hdigits, -⟩ := exists_ofNat_eq_cons n
    obtain rfl : n = 0 := by
      rw [hdigits, List.cons_append] at hzero
      rw [(List.cons.inj hzero).1] at hdigits
      exact eq_zero_of_ofNat_eq_cons hdigits
    rw [← (List.cons.inj hzero).2]
    rfl
  · rw [htake, hdrop, if_neg (by simp [Text.ofNat, Nat.toDigits_ne_nil])]

/-- What ends a number is neither a fraction nor an exponent. -/
theorem EndsNumber.readFraction (h : EndsNumber rest) : readFraction rest = none := by
  unfold Json.readFraction
  split
  · exact absurd rfl (h '.' rfl).2.1
  · rfl

theorem EndsNumber.readExponent (h : EndsNumber rest) : readExponent rest = none := by
  cases rest with
  | nil => rfl
  | cons c rest =>
    obtain ⟨-, -, he, hE⟩ := h c rfl
    unfold Json.readExponent
    exact if_neg (by simp [he, hE])

theorem readNumber?_ofNat (hrest : EndsNumber rest) {n : Nat}
    (hfits : (Text.ofNat n).length ≤ digitLimit) (negative : Bool) :
    readNumber? negative (Text.ofNat n ++ rest) =
      some (.int (if negative then -n else n), rest) := by
  rw [readNumber?, readWhole?_ofNat hrest, Option.bind_eq_bind, Option.bind_some]
  simp only [hrest.readFraction, hrest.readExponent, decimal_ofNat]
  exact if_neg (Nat.not_lt.mpr hfits)

theorem takeWord?_eq_none (first : Char) {word t : Text} (hword : word.head? = some first)
    (ht : t.head? ≠ some first) : takeWord? word t = none := by
  obtain ⟨word, rfl⟩ := List.head?_eq_some_iff.mp hword
  refine if_neg fun hprefix => ht ?_
  obtain ⟨rest, rfl⟩ := List.isPrefixOf_iff_prefix.mp hprefix
  rfl

/-- What an integer starts with is neither a letter nor a bracket nor a quote. -/
theorem ne_of_isStart {c d : Char} (hc : c.isDigit ∨ c = '-') (hdigit : d.isDigit = false)
    (hminus : d ≠ '-') : c ≠ d := by
  rintro rfl
  rcases hc with hc | hc
  · rw [hc] at hdigit
    cases hdigit
  · exact hminus hc

/-- A text that starts as an integer does, and not with the one word that does, is a number. -/
theorem readSimple?_of_isStart {c : Char} {t : Text} (hc : c.isDigit ∨ c = '-')
    (hinfinity : takeWord? "-Infinity" (c :: t) = none) :
    readSimple? (c :: t) =
      match c :: t with
      | '-' :: rest => (readNumber? true rest).map fun (n, after) => (.number n, after)
      | _ => (readNumber? false (c :: t)).map fun (n, after) => (.number n, after) := by
  have hhead (first : Char) (hdigit : first.isDigit = false) (hminus : first ≠ '-') :
      (c :: t).head? ≠ some first :=
    fun h => ne_of_isStart hc hdigit hminus (Option.some.inj h)
  unfold readSimple?
  rw [takeWord?_eq_none 'n' rfl (hhead _ rfl (by decide)),
    takeWord?_eq_none 't' rfl (hhead _ rfl (by decide)),
    takeWord?_eq_none 'f' rfl (hhead _ rfl (by decide)),
    takeWord?_eq_none 'N' rfl (hhead _ rfl (by decide)),
    takeWord?_eq_none 'I' rfl (hhead _ rfl (by decide)), hinfinity]
  rfl

/-- An integer is read back from its numeral. -/
theorem readSimple?_ofInt (hrest : EndsNumber rest) {n : Int} (hfits : Fits n) :
    readSimple? (Text.ofInt n ++ rest) = some (ofInt n, rest) := by
  cases n with
  | ofNat n =>
    obtain ⟨c, t, hdigits, hc⟩ := exists_ofNat_eq_cons n
    have hminus : c ≠ '-' := by
      rintro rfl
      exact absurd hc (by decide)
    have hread := readNumber?_ofNat hrest (n := n) hfits false
    rw [hdigits, List.cons_append] at hread
    rw [Text.ofInt, hdigits, List.cons_append, readSimple?_of_isStart (.inl hc)]
    · split
      · rename_i hcons
        exact absurd (List.cons.inj hcons).1 hminus
      · rw [hread]
        rfl
    · exact takeWord?_eq_none '-' rfl (by simpa using hminus)
  | negSucc n =>
    obtain ⟨c, t, hdigits, hc⟩ := exists_ofNat_eq_cons (n + 1)
    have hread := readNumber?_ofNat hrest (n := n + 1) hfits true
    -- the only word with a minus sign goes on with a letter
    have hinfinity : takeWord? "-Infinity" ('-' :: c :: (t ++ rest)) = none := by
      refine if_neg fun hprefix => ?_
      obtain ⟨after, h⟩ := List.isPrefixOf_iff_prefix.mp hprefix
      have hI : 'I' = c := (List.cons.inj (List.cons.inj h).2).1
      rw [← hI] at hc
      exact absurd hc (by decide)
    rw [hdigits, List.cons_append] at hread
    rw [Text.ofInt, hdigits, List.cons_append, List.cons_append,
      readSimple?_of_isStart (.inr rfl) hinfinity]
    simp only [hread]
    rfl

end Integer

end DebtSurvey.Json
