import DebtSurvey.Imports.Statement
import DebtSurvey.Proofs.Declaration

/-!
# Forms of import statements

Targets are found by looking for a word that introduces one, at every place of a source text. In a
list of import statements that finds exactly the targets. A name may read like such a word, or start
or end with one, but no quote and no parenthesis comes after it (`Idle`), so it introduces nothing. A
target is taken as a whole, so the words in it are never looked at.

## Main results

* `Imports.Idle.passes`: a name introduces nothing.
* `Imports.takeTarget?_introduction`: what introduces a target is taken together with it.
* `Imports.Statement.targetsFrom_text`: the target of one statement is found, and nothing else in it.
* `Imports.targets_statements`: the targets of a list of statements are found, in order.
-/

namespace DebtSurvey.Imports

open Code (skipBlanks skipGap? takeWord? takeWord?_eq_some_iff prefix_append_cases)

/-! ### Places where nothing is introduced -/

/-- No target is introduced at the start of a text, whatever comes before it. -/
def Passes (t : Text) : Prop := (takeIntroduction? t).bind takeQuoted? = none

/-- After its blanks a text neither opens a parenthesis nor starts a quotation. -/
def Idle (t : Text) : Prop := ∀ c ∈ (skipBlanks t).head?, c ≠ '(' ∧ ¬isQuote c

/-- The words that introduce targets. -/
def introducingWords : List Text := ["from", "import", "require"]

theorem takeQuoted?_eq_none {t : Text} (h : ∀ c ∈ t.head?, ¬isQuote c) : takeQuoted? t = none := by
  cases t with
  | nil => rfl
  | cons c rest => simp [takeQuoted?, h c rfl]

/-- A parenthesis that is not opened is not taken. -/
theorem Idle.not_parenthesis {t inside : Text} (h : Idle t) : skipBlanks t ≠ '(' :: inside := by
  intro hopened
  exact (h '(' (by rw [hopened]; rfl)).1 rfl

theorem Idle.takeQuoted?_skipBlanks {t : Text} (h : Idle t) : takeQuoted? (skipBlanks t) = none :=
  takeQuoted?_eq_none fun c hc => (h c hc).2

/-- Nothing is introduced where only idle text follows the words that could do so. -/
theorem passes_of_idle {t : Text}
    (h : ∀ word ∈ introducingWords, ∀ after, takeWord? word t = some after → Idle after) :
    Passes t := by
  simp only [introducingWords, List.forall_mem_cons, List.not_mem_nil, false_implies,
    implies_true, and_true] at h
  obtain ⟨hfrom, himport, hrequire⟩ := h
  unfold Passes takeIntroduction?
  split
  · -- after `from` there are blanks, and then the quotation
    rename_i rest hword
    have hidle := hfrom rest hword
    cases rest with
    | nil => rfl
    | cons c rest =>
      rw [skipGap?]
      split
      · rename_i hblank
        rw [Idle, skipBlanks, List.dropWhile_cons_of_pos hblank] at hidle
        exact takeQuoted?_eq_none fun c hc => (hidle c hc).2
      · rfl
  · rename_i rest hword _
    have hidle := himport rest hword
    split
    · rename_i hopened
      exact absurd hopened hidle.not_parenthesis
    · exact hidle.takeQuoted?_skipBlanks
  · rename_i rest hword _ _
    have hidle := hrequire rest hword
    split
    · rename_i hopened
      exact absurd hopened hidle.not_parenthesis
    · rfl
  · rfl

/-- None of the introducing words starts with another letter than these. -/
theorem passes_cons {c : Char} (h : c ∉ ['f', 'i', 'r']) (rest : Text) : Passes (c :: rest) := by
  refine passes_of_idle fun word hword after htake => ?_
  have htext := takeWord?_eq_some_iff.mp htake
  refine absurd ?_ h
  simp only [introducingWords, List.mem_cons, List.not_mem_nil, or_false] at hword
  rcases hword with rfl | rfl | rfl <;> simp [Text.ofString] at htext <;> simp [htext.1]

/-- A place where nothing is introduced is passed. -/
theorem targetsFrom_cons {c : Char} {rest : Text} (h : Passes (c :: rest)) (before : Option Char) :
    targetsFrom before 0 (c :: rest) = targetsFrom (some c) 0 rest := by
  have hnone : takeTarget? before (c :: rest) = none := by
    unfold takeTarget?
    split
    · rfl
    · exact h
  rw [targetsFrom, hnone]

/-! ### Names -/

/-- The characters of names in ASCII. -/
def isNameCharacter (c : Char) : Bool := c.isAlphanum || c == '_' || c == '$'

/-- A name in ASCII does not start with a digit. -/
def IsName (name : Text) : Prop :=
  name ≠ [] ∧ (∀ c ∈ name, isNameCharacter c) ∧ ∀ c ∈ name.head?, ¬c.isDigit

instance : DecidablePred IsName := fun name =>
  decidable_of_iff (name ≠ [] ∧ name.all isNameCharacter ∧ name.head?.all (!·.isDigit))
    (by simp [IsName, Option.all_eq_true])

/-- The characters of names are letters, digits, and two signs, with these code points. -/
theorem isNameCharacter_iff_toNat (c : Char) : isNameCharacter c ↔
    65 ≤ c.toNat ∧ c.toNat ≤ 90 ∨ 97 ≤ c.toNat ∧ c.toNat ≤ 122 ∨ 48 ≤ c.toNat ∧ c.toNat ≤ 57 ∨
      c.toNat = 95 ∨ c.toNat = 36 := by
  have hranges : isNameCharacter c =
      (decide (c.val ≥ 65 ∧ c.val ≤ 90) || (c.val ≥ 97 && c.val ≤ 122) ||
        (c.val ≥ 48 && c.val ≤ 57) || c == '_' || c == '$') := rfl
  rw [hranges]
  simp only [Bool.or_eq_true, Bool.and_eq_true, decide_eq_true_eq, beq_iff_eq, ge_iff_le,
    Char.ext_iff, UInt32.le_iff_toNat_le, ← UInt32.toNat_inj]
  simp only [Char.toNat]
  norm_num
  tauto

/-- A character of a name ends blanks, and is no parenthesis and no quote. -/
theorem not_blank_of_isNameCharacter {c : Char} (h : isNameCharacter c) :
    ¬Text.isBlank c ∧ c ≠ '(' ∧ ¬isQuote c := by
  rw [isNameCharacter_iff_toNat] at h
  refine ⟨fun hblank => ?_, ?_, ?_⟩
  · simp only [Text.isBlank, Bool.or_eq_true, Bool.and_eq_true, decide_eq_true_eq, beq_iff_eq]
      at hblank
    omega
  · rintro rfl
    exact absurd h (by decide)
  · intro hquote
    simp only [isQuote, Bool.or_eq_true, beq_iff_eq] at hquote
    rcases hquote with rfl | rfl <;> exact absurd h (by decide)

theorem idle_cons {c : Char} (hblank : ¬Text.isBlank c) (hplain : c ≠ '(' ∧ ¬isQuote c)
    (rest : Text) : Idle (c :: rest) := by
  intro d hd
  rw [skipBlanks, List.dropWhile_cons_of_neg hblank] at hd
  obtain rfl : c = d := Option.some.inj hd
  exact hplain

/-- A text that starts with a name is idle. -/
theorem idle_of_name {name : Text} (hname : ∀ c ∈ name, isNameCharacter c) (hne : name ≠ [])
    (rest : Text) : Idle (name ++ rest) := by
  obtain ⟨c, name, rfl⟩ := List.exists_cons_of_ne_nil hne
  obtain ⟨hblank, hplain⟩ := not_blank_of_isNameCharacter (hname c List.mem_cons_self)
  exact idle_cons hblank hplain _

/-- A text is as idle as what follows its blanks. -/
theorem Idle.blank {rest : Text} (h : Idle rest) : Idle (' ' :: rest) := h

/-- What is left of a name in front of idle text is idle. -/
theorem Idle.append {name rest : Text} (hname : ∀ c ∈ name, isNameCharacter c) (h : Idle rest) :
    Idle (name ++ rest) := by
  by_cases hne : name = []
  · rwa [hne]
  · exact idle_of_name hname hne rest

/-- At no place of a name a target is introduced, if the name ends there and idle text follows it. -/
theorem Idle.passes {name rest : Text} (hname : ∀ c ∈ name, isNameCharacter c)
    (hend : ∀ c ∈ rest.head?, ¬isNameCharacter c) (h : Idle rest) : Passes (name ++ rest) := by
  refine passes_of_idle fun word hword after htake => ?_
  have htext := takeWord?_eq_some_iff.mp htake
  have hletters : ∀ word ∈ introducingWords, word.all isNameCharacter := by decide
  rcases prefix_append_cases ⟨after, htext.symm⟩ with ⟨behind, rfl⟩ | ⟨behind, rfl, htail⟩
  · -- the word ends within the name, and the rest of the name comes after it
    rw [List.append_assoc] at htext
    rw [← List.append_cancel_left htext]
    exact h.append fun c hc => hname c (List.mem_append_right _ hc)
  · -- a word of letters does not go on behind the name
    obtain rfl : behind = [] := by
      cases behind with
      | nil => rfl
      | cons c behind =>
        obtain ⟨more, rfl⟩ := htail
        exact absurd (List.all_eq_true.mp (hletters _ hword) c (by simp)) (hend c rfl)
    rw [List.append_nil] at htext
    rwa [← List.append_cancel_left htext]

/-- A name that idle text follows is passed. -/
theorem exists_targetsFrom_name {name rest : Text} (hname : ∀ c ∈ name, isNameCharacter c)
    (hend : ∀ c ∈ rest.head?, ¬isNameCharacter c) (h : Idle rest) (before : Option Char) :
    ∃ last, targetsFrom before 0 (name ++ rest) = targetsFrom last 0 rest := by
  induction name generalizing before with
  | nil => exact ⟨before, rfl⟩
  | cons c name ih =>
    obtain ⟨last, hlast⟩ := ih (fun d hd => hname d (List.mem_cons_of_mem _ hd)) (some c)
    refine ⟨last, ?_⟩
    rw [← hlast, List.cons_append]
    exact targetsFrom_cons (h.passes hname hend) before

/-- A name and the blank behind it are passed, if idle text follows. -/
theorem targetsFrom_name_append {name rest : Text} (hname : ∀ c ∈ name, isNameCharacter c)
    (h : Idle rest) (before : Option Char) :
    targetsFrom before 0 (name ++ ' ' :: rest) = targetsFrom (some ' ') 0 rest := by
  have hend : ∀ c ∈ (' ' :: rest).head?, ¬isNameCharacter c := by
    rintro c ⟨⟩
    decide
  obtain ⟨last, hlast⟩ := exists_targetsFrom_name hname hend h.blank before
  rw [hlast]
  exact targetsFrom_cons (passes_cons (by decide) rest) last

/-! ### Quotations -/

/-- Spaces and tabs. -/
def IsGap (gap : Text) : Prop := ∀ c ∈ gap, c = ' ' ∨ c = '\t'

instance : DecidablePred IsGap := fun gap =>
  decidable_of_iff (gap.all fun c => c == ' ' || c == '\t') (by simp [IsGap])

theorem IsGap.isBlank {gap : Text} (h : IsGap gap) : ∀ c ∈ gap, Text.isBlank c := by
  intro c hc
  rcases h c hc with rfl | rfl <;> decide

/-- A gap is skipped up to what follows it. -/
theorem IsGap.skipBlanks_append {gap : Text} (h : IsGap gap) {c : Char} (hc : ¬Text.isBlank c)
    (rest : Text) : skipBlanks (gap ++ c :: rest) = c :: rest := by
  rw [skipBlanks, List.dropWhile_append_of_pos h.isBlank, List.dropWhile_cons_of_neg hc]

/-- A gap that is not empty is taken as one. -/
theorem IsGap.skipGap?_append {gap : Text} (h : IsGap gap) (hne : gap ≠ []) {c : Char}
    (hc : ¬Text.isBlank c) (rest : Text) : skipGap? (gap ++ c :: rest) = some (c :: rest) := by
  obtain ⟨first, gap, rfl⟩ := List.exists_cons_of_ne_nil hne
  have hgap : IsGap gap := fun d hd => h d (List.mem_cons_of_mem _ hd)
  rw [List.cons_append, skipGap?, if_pos (h.isBlank first List.mem_cons_self),
    hgap.skipBlanks_append hc]

/-- A quote ends blanks, and is no parenthesis. -/
theorem not_blank_of_isQuote {quote : Char} (h : isQuote quote) :
    ¬Text.isBlank quote ∧ quote ≠ '(' := by
  simp only [isQuote, Bool.or_eq_true, beq_iff_eq] at h
  rcases h with rfl | rfl <;> decide

/-- A text that may stand between quotes. -/
def IsTarget (target : Text) : Prop := target ≠ [] ∧ ∀ c ∈ target, ¬isQuote c

instance : DecidablePred IsTarget := fun target =>
  decidable_of_iff (target ≠ [] ∧ target.all (!isQuote ·)) (by simp [IsTarget])

/-- A quotation is taken as a whole, whatever words it holds. -/
theorem takeQuoted?_append {quote : Char} (hquote : isQuote quote) {target : Text}
    (htarget : IsTarget target) (rest : Text) :
    takeQuoted? (quote :: (target ++ quote :: rest)) = some (target, rest) := by
  obtain ⟨hne, hplain⟩ := htarget
  have hinside : ∀ c ∈ target, (!isQuote c) = true := fun c hc => by simpa using hplain c hc
  have htake : (target ++ quote :: rest).takeWhile (!isQuote ·) = target := by
    rw [List.takeWhile_append_of_pos hinside]
    simp [hquote]
  have hdrop : (target ++ quote :: rest).dropWhile (!isQuote ·) = quote :: rest := by
    rw [List.dropWhile_append_of_pos hinside]
    simp [hquote]
  simp only [takeQuoted?, if_pos hquote, htake, hdrop]
  rw [if_neg (by simpa using hne)]

/-! ### Statements -/

/-- The forms of import statements. -/
inductive Form where
  /-- `import` with a target only. -/
  | bare (gap : Text)
  /-- `import` with a target in parentheses. -/
  | call (outside inside : Text)
  /-- `import` of a name `from` a target. -/
  | named (name gap : Text)
  /-- `export` of everything `from` a target. -/
  | everything (gap : Text)
  /-- A name that stands for what is required with a target in parentheses. -/
  | required (name outside inside : Text)
deriving DecidableEq, Repr

namespace Form

/-- What stands before the word that introduces the target. -/
def lead : Form → Text
  | bare _ => ""
  | call _ _ => ""
  | named name _ => "import " ++ name ++ " "
  | everything _ => "export * "
  | required name _ _ => "const " ++ name ++ " = "

/-- The word that introduces the target, and what stands between it and the target. -/
def introduction : Form → Text
  | bare gap => "import" ++ gap
  | call outside inside => "import" ++ outside ++ "(" ++ inside
  | named _ gap => "from" ++ gap
  | everything gap => "from" ++ gap
  | required _ outside inside => "require" ++ outside ++ "(" ++ inside

/-- What stands behind the target. -/
def close : Form → Text
  | bare _ => ";"
  | call _ _ => ");"
  | named _ _ => ";"
  | everything _ => ";"
  | required _ _ _ => ");"

/-- Names are names and gaps are gaps. A gap around a parenthesis may be empty, others not. -/
def IsWritten : Form → Prop
  | bare gap => IsGap gap ∧ gap ≠ []
  | call outside inside => IsGap outside ∧ IsGap inside
  | named name gap => IsName name ∧ IsGap gap ∧ gap ≠ []
  | everything gap => IsGap gap ∧ gap ≠ []
  | required name outside inside => IsName name ∧ IsGap outside ∧ IsGap inside

instance : DecidablePred IsWritten := fun form =>
  match form with
  | bare _ => inferInstanceAs (Decidable (_ ∧ _))
  | call _ _ => inferInstanceAs (Decidable (_ ∧ _))
  | named _ _ => inferInstanceAs (Decidable (_ ∧ _ ∧ _))
  | everything _ => inferInstanceAs (Decidable (_ ∧ _))
  | required _ _ _ => inferInstanceAs (Decidable (_ ∧ _ ∧ _))

end Form

/-- An import statement. -/
structure Statement where
  /-- Its form. -/
  form : Form
  /-- The quote on both sides of the target. -/
  quote : Char
  /-- The target. -/
  target : Text
deriving DecidableEq, Repr

namespace Statement

/-- The text of a statement. -/
def text (s : Statement) : Text :=
  s.form.lead ++ s.form.introduction ++ s.quote :: (s.target ++ s.quote :: s.form.close)

/-- A statement that is written in its form. -/
def IsWritten (s : Statement) : Prop := s.form.IsWritten ∧ isQuote s.quote ∧ IsTarget s.target

instance : DecidablePred IsWritten := fun _ => inferInstanceAs (Decidable (_ ∧ _ ∧ _))

end Statement

/-! ### What is found in a statement -/

/-- The word that introduces a target is taken, and the gaps behind it. -/
theorem takeIntroduction?_append {form : Form} (h : form.IsWritten) {quote : Char}
    (hquote : isQuote quote) (rest : Text) :
    takeIntroduction? (form.introduction ++ quote :: rest) = some (quote :: rest) := by
  obtain ⟨hblank, hparenthesis⟩ := not_blank_of_isQuote hquote
  -- which of the words it is can be told from the first letter
  have hword (word t : Text) : takeWord? word (word ++ t) = some t := takeWord?_eq_some_iff.mpr rfl
  have himport (t : Text) : takeWord? "from" ("import" ++ t) = none := by
    simp [takeWord?, Text.ofString]
  have hrequire (t : Text) : takeWord? "from" ("require" ++ t) = none ∧
      takeWord? "import" ("require" ++ t) = none := by
    simp [takeWord?, Text.ofString]
  have hopening : ¬Text.isBlank '(' := by decide
  cases form with
  | bare gap =>
    rw [Form.introduction, List.append_assoc, takeIntroduction?, himport, hword]
    simp only [h.1.skipBlanks_append hblank]
    split
    · rename_i hopened
      exact absurd (List.cons.inj hopened).1 hparenthesis
    · rfl
  | call outside inside =>
    have htext : (Form.call outside inside).introduction ++ quote :: rest =
        "import" ++ (outside ++ '(' :: (inside ++ quote :: rest)) := by
      simp [Form.introduction, Text.ofString]
    rw [htext, takeIntroduction?, himport, hword]
    simp only [h.1.skipBlanks_append hopening, h.2.skipBlanks_append hblank]
  | named name gap =>
    rw [Form.introduction, List.append_assoc, takeIntroduction?, hword]
    exact h.2.1.skipGap?_append h.2.2 hblank rest
  | everything gap =>
    rw [Form.introduction, List.append_assoc, takeIntroduction?, hword]
    exact h.1.skipGap?_append h.2 hblank rest
  | required name outside inside =>
    have htext : (Form.required name outside inside).introduction ++ quote :: rest =
        "require" ++ (outside ++ '(' :: (inside ++ quote :: rest)) := by
      simp [Form.introduction, Text.ofString]
    rw [htext, takeIntroduction?, (hrequire _).1, (hrequire _).2, hword]
    simp only [h.2.1.skipBlanks_append hopening, h.2.2.skipBlanks_append hblank]

/-- What introduces a target is taken together with it. -/
theorem takeTarget?_introduction {s : Statement} (h : s.IsWritten) {before : Option Char}
    (hbefore : ¬Text.wordBefore before) (rest : Text) :
    takeTarget? before
        (s.form.introduction ++ s.quote :: (s.target ++ s.quote :: rest)) =
      some (s.target, rest) := by
  obtain ⟨hform, hquote, htarget⟩ := h
  rw [takeTarget?, if_neg hbefore, takeIntroduction?_append hform hquote, Option.bind_some,
    takeQuoted?_append hquote htarget]

/-- What belongs to the last statement is passed. -/
theorem exists_targetsFrom_length (taken rest : Text) (before : Option Char) :
    ∃ last, targetsFrom before taken.length (taken ++ rest) = targetsFrom last 0 rest := by
  induction taken generalizing before with
  | nil => exact ⟨before, rfl⟩
  | cons c taken ih => exact ih (some c)

/-- Where a target is taken, it is found, and the search goes on behind it. -/
theorem exists_targetsFrom_of_takeTarget? {before : Option Char} {taken rest target : Text}
    (hne : taken ≠ []) (h : takeTarget? before (taken ++ rest) = some (target, rest)) :
    ∃ last, targetsFrom before 0 (taken ++ rest) = target :: targetsFrom last 0 rest := by
  obtain ⟨c, taken, rfl⟩ := List.exists_cons_of_ne_nil hne
  obtain ⟨last, hlast⟩ := exists_targetsFrom_length taken rest (some c)
  refine ⟨last, ?_⟩
  rw [List.cons_append] at h ⊢
  rw [targetsFrom, h, ← hlast]
  simp

/-- A text without the first letters of the introducing words is passed. -/
theorem exists_targetsFrom_append {passed : Text} (h : ∀ c ∈ passed, c ∉ ['f', 'i', 'r'])
    (rest : Text) (before : Option Char) :
    ∃ last, targetsFrom before 0 (passed ++ rest) = targetsFrom last 0 rest := by
  induction passed generalizing before with
  | nil => exact ⟨before, rfl⟩
  | cons c passed ih =>
    obtain ⟨hc, hpassed⟩ := List.forall_mem_cons.mp h
    obtain ⟨last, hlast⟩ := ih hpassed (some c)
    refine ⟨last, ?_⟩
    rw [← hlast, List.cons_append]
    exact targetsFrom_cons (passes_cons hc _) before

/-- What stands before the introducing word is passed. It does not end like a word. -/
theorem exists_targetsFrom_lead {form : Form} (h : form.IsWritten) {before : Option Char}
    (hbefore : ¬Text.wordBefore before) (rest : Text) :
    ∃ last, ¬Text.wordBefore last ∧
      targetsFrom before 0 (form.lead ++ (form.introduction ++ rest)) =
        targetsFrom last 0 (form.introduction ++ rest) := by
  have hblank : ¬Text.wordBefore (some ' ') := by decide
  cases form with
  | bare gap => exact ⟨before, hbefore, rfl⟩
  | call outside inside => exact ⟨before, hbefore, rfl⟩
  | named name gap =>
    refine ⟨some ' ', hblank, ?_⟩
    generalize hbehind : (Form.named name gap).introduction ++ rest = behind
    have htext : (Form.named name gap).lead ++ behind = "import" ++ ' ' :: (name ++ ' ' :: behind) := by
      simp [Form.lead, Text.ofString]
    have hidle : Idle behind := by
      rw [← hbehind, Form.introduction, List.append_assoc]
      exact idle_of_name (List.all_eq_true.mp rfl) (by decide) _
    rw [htext, targetsFrom_name_append (List.all_eq_true.mp rfl) (idle_of_name h.1.2.1 h.1.1 _),
      targetsFrom_name_append h.1.2.1 hidle]
  | everything gap =>
    refine ⟨some ' ', hblank, ?_⟩
    generalize (Form.everything gap).introduction ++ rest = behind
    have htext : (Form.everything gap).lead ++ behind = "export" ++ ' ' :: '*' :: ' ' :: behind := by
      simp [Form.lead, Text.ofString]
    rw [htext, targetsFrom_name_append (List.all_eq_true.mp rfl) (idle_cons (by decide) (by decide) _),
      targetsFrom_cons (passes_cons (by decide) _), targetsFrom_cons (passes_cons (by decide) _)]
  | required name outside inside =>
    refine ⟨some ' ', hblank, ?_⟩
    generalize (Form.required name outside inside).introduction ++ rest = behind
    have htext : (Form.required name outside inside).lead ++ behind =
        "const" ++ ' ' :: (name ++ ' ' :: '=' :: ' ' :: behind) := by
      simp [Form.lead, Text.ofString]
    rw [htext, targetsFrom_name_append (List.all_eq_true.mp rfl) (idle_of_name h.1.2.1 h.1.1 _),
      targetsFrom_name_append h.1.2.1 (idle_cons (by decide) (by decide) _),
      targetsFrom_cons (passes_cons (by decide) _), targetsFrom_cons (passes_cons (by decide) _)]

/-- The target of a statement is found, and nothing else in it. -/
theorem Statement.exists_targetsFrom_text {s : Statement} (h : s.IsWritten) {before : Option Char}
    (hbefore : ¬Text.wordBefore before) (rest : Text) :
    ∃ last, targetsFrom before 0 (s.text ++ rest) = s.target :: targetsFrom last 0 rest := by
  have htext : s.text ++ rest = s.form.lead ++ (s.form.introduction ++
      s.quote :: (s.target ++ s.quote :: (s.form.close ++ rest))) := by
    simp [Statement.text]
  have hclose : ∀ c ∈ s.form.close, c ∉ ['f', 'i', 'r'] := by
    cases s.form <;> simp [Form.close, Text.ofString]
  obtain ⟨last, hlast, hlead⟩ := exists_targetsFrom_lead h.1 hbefore
    (s.quote :: (s.target ++ s.quote :: (s.form.close ++ rest)))
  -- the introduction and the quotation are one piece, and then comes what closes the statement
  have hpiece (behind : Text) : s.form.introduction ++ s.quote :: (s.target ++ s.quote :: behind) =
      (s.form.introduction ++ s.quote :: (s.target ++ [s.quote])) ++ behind := by
    simp
  have htake := takeTarget?_introduction h hlast (s.form.close ++ rest)
  rw [hpiece] at htake
  obtain ⟨behind, hfound⟩ := exists_targetsFrom_of_takeTarget? (by simp) htake
  obtain ⟨final, hrest⟩ := exists_targetsFrom_append hclose rest behind
  refine ⟨final, ?_⟩
  rw [htext, hlead, hpiece, hfound, hrest]

/-- Line ends hold no target. -/
theorem targetsFrom_lineEnds (n : Nat) (before : Option Char) :
    targetsFrom before 0 (List.replicate n '\n') = [] := by
  have hletters : ∀ c ∈ List.replicate n '\n', c ∉ ['f', 'i', 'r'] := by
    intro c hc
    rw [List.eq_of_mem_replicate hc]
    decide
  obtain ⟨last, hlast⟩ := exists_targetsFrom_append hletters [] before
  rw [List.append_nil] at hlast
  rw [hlast, targetsFrom]

/-- From the start of a line on, the targets of the statements on it and on the lines behind it are
found. -/
theorem targetsFrom_statements {statements : List Statement} (h : ∀ s ∈ statements, s.IsWritten)
    (n : Nat) {before : Option Char} (hbefore : ¬Text.wordBefore before) :
    targetsFrom before 0
        (Text.join ['\n'] (statements.map Statement.text) ++ List.replicate n '\n') =
      statements.map Statement.target := by
  induction statements generalizing before with
  | nil => exact targetsFrom_lineEnds n before
  | cons s rest ih =>
    obtain ⟨hs, hrest⟩ := List.forall_mem_cons.mp h
    by_cases hlast : rest = []
    · subst hlast
      obtain ⟨last, htext⟩ := Statement.exists_targetsFrom_text hs hbefore (List.replicate n '\n')
      rw [List.map_singleton, List.map_singleton, Text.join, htext, targetsFrom_lineEnds]
    · -- the next statement starts behind the line end
      generalize hlines : Text.join ['\n'] (rest.map Statement.text) ++ List.replicate n '\n' = lines
        at ih
      have hline : Text.join ['\n'] ((s :: rest).map Statement.text) ++ List.replicate n '\n' =
          s.text ++ '\n' :: lines := by
        rw [List.map_cons, Text.join_cons _ _ (by simpa using hlast), ← hlines]
        simp
      obtain ⟨last, htext⟩ := Statement.exists_targetsFrom_text hs hbefore ('\n' :: lines)
      rw [hline, htext, targetsFrom_cons (passes_cons (by decide) _), ih hrest (by decide),
        List.map_cons]

/-- The targets of a list of import statements, each on its own line, are found in order, with any
number of line ends behind the last one. -/
theorem targets_statements {statements : List Statement} (h : ∀ s ∈ statements, s.IsWritten)
    (n : Nat) :
    targets (Text.join ['\n'] (statements.map Statement.text) ++ List.replicate n '\n') =
      statements.map Statement.target :=
  targetsFrom_statements h n (by decide)

/-- Statements whose names and targets read like words that introduce targets. -/
def misleadingStatements : List Statement :=
  [⟨.named "from" " ", '\'', "import x from y"⟩, ⟨.required "$require" "\t" " ", '"', "./from"⟩,
    ⟨.call "" "", '\'', "require("⟩, ⟨.everything " \t", '"', "import"⟩,
    ⟨.bare "\t", '\'', "from"⟩]

/-- Their targets are found, and none is made up. -/
theorem targets_statements_misleading :
    (∀ s ∈ misleadingStatements, s.IsWritten) ∧
      targets (Text.join ['\n'] (misleadingStatements.map Statement.text) ++
          List.replicate 1 '\n') =
        (["import x from y", "./from", "require(", "import", "from"] : List Text) := by
  have hwritten : ∀ s ∈ misleadingStatements, s.IsWritten := by decide
  exact ⟨hwritten, targets_statements hwritten 1⟩

end DebtSurvey.Imports
