import DebtSurvey.Proofs.BlameOutput
import Mathlib.Data.List.Forall2

/-!
# Headers in blame output

A line of blame output is a header by its form alone: a hash and two numbers, with a blank before
each, and whatever follows. The second number is that of the line now, and it is read in full, in the
digits of any script. A number with more digits than an integer read from text may have is the one
thing in blame output that cannot be read: a time like that is passed over, and nothing else is
converted.

## Main results

* `Porcelain.parse_eq_header_iff`: which lines are read as headers, and of what.
* `Porcelain.parse_eq_error_iff`: which lines cannot be read.
* `Porcelain.exists_rows_iff`: which blame output can be read.
-/

namespace DebtSurvey.Porcelain

/-- A line as a header. -/
structure Header (line : Text) where
  /-- The commit of the line. -/
  commit : Text
  /-- The numeral of its number in that commit. -/
  original : Text
  /-- The numeral of its number now. -/
  numeral : Text
  /-- What follows; it does not matter. -/
  rest : Text
  line_eq : line = commit ++ ' ' :: (original ++ ' ' :: (numeral ++ rest))
  commit_isHash : IsHash commit
  original_isNumeral : IsNumeral original
  numeral_isNumeral : IsNumeral numeral
  /-- The numeral ends where its digits end. -/
  rest_noDigit : ∀ c ∈ rest.head?, ¬Text.isDigit c

namespace Header

variable {line : Text}

/-- The number of the line now. -/
def number (h : Header line) : Nat := Text.digitsToNat (h.numeral.filterMap Text.digitValue?)

/-- Whether the number of the line has few enough digits to be read. -/
def IsReadable (h : Header line) : Prop := h.numeral.length ≤ Text.digitLimit

instance (h : Header line) : Decidable h.IsReadable :=
  inferInstanceAs (Decidable (h.numeral.length ≤ Text.digitLimit))

/-- A header is taken for one. -/
theorem takeHeader?_eq (h : Header line) :
    takeHeader? line = some (h.commit, h.numeral.filterMap Text.digitValue?) := by
  have htake := takeHeader?_append h.commit_isHash h.original_isNumeral h.numeral_isNumeral
    h.rest_noDigit
  rwa [← h.line_eq] at htake

/-- A header is read as that, if its number can be read. -/
theorem parse_eq (h : Header line) : Line.parse line =
    if h.IsReadable then .ok (.header h.commit h.number) else .error .lineNumberTooLong := by
  -- each digit has a value
  have hlength : (h.numeral.filterMap Text.digitValue?).length = h.numeral.length :=
    List.filterMap_length_eq_length.mpr h.numeral_isNumeral.2
  have hvalue : Text.natOfDigits? (h.numeral.filterMap Text.digitValue?) =
      if h.IsReadable then some h.number else none := by
    rw [Text.natOfDigits?, hlength]
    rfl
  rw [Line.parse, if_neg (head?_ne_tab h.takeHeader?_eq), h.takeHeader?_eq]
  simp only [hvalue]
  by_cases hreadable : h.IsReadable
  · simp only [if_pos hreadable]
  · simp only [if_neg hreadable]

end Header

/-- What a line is about, if it is read as a header: a commit and a line. -/
def Line.place? : Line → Option (Text × Int)
  | .header commit number => some (commit, (number : Int))
  | _ => none

variable {t output : Text}

/-- A line that is not taken for a header can be read, and not as a header. -/
theorem exists_parse_of_none (h : takeHeader? t = none) :
    ∃ line, Line.parse t = .ok line ∧ line.place? = none := by
  rw [Line.parse]
  split
  · exact ⟨_, rfl, rfl⟩
  · rw [h]
    simp only
    split <;> exact ⟨_, rfl, rfl⟩

/-- A line is a header, or it can be read as something else. -/
theorem nonempty_header_or (t : Text) :
    Nonempty (Header t) ∨ ∃ line, Line.parse t = .ok line ∧ line.place? = none := by
  cases htake : takeHeader? t with
  | none => exact .inr (exists_parse_of_none htake)
  | some found =>
    obtain ⟨original, numeral, rest, hcommit, horiginal, hnumeral, hrest, hline, -⟩ :=
      eq_of_takeHeader? htake
    exact .inl ⟨⟨_, original, numeral, rest, hline, hcommit, horiginal, hnumeral, hrest⟩⟩

/-- A line is read as a header if and only if it is one whose number can be read. -/
theorem parse_eq_header_iff {commit : Text} {number : Nat} :
    Line.parse t = .ok (.header commit number) ↔
      ∃ h : Header t, h.IsReadable ∧ h.commit = commit ∧ h.number = number := by
  constructor
  · intro hparse
    rcases nonempty_header_or t with ⟨⟨h⟩⟩ | ⟨line, hline, hother⟩
    · rw [h.parse_eq] at hparse
      split at hparse
      · rename_i hreadable
        obtain ⟨hcommit, hnumber⟩ := Line.header.inj (Except.ok.inj hparse)
        exact ⟨h, hreadable, hcommit, hnumber⟩
      · cases hparse
    · rw [hline] at hparse
      rw [Except.ok.inj hparse] at hother
      cases hother
  · rintro ⟨h, hreadable, rfl, rfl⟩
    rw [h.parse_eq, if_pos hreadable]

/-- A line cannot be read if and only if it is a header whose number has too many digits. -/
theorem parse_eq_error_iff {e : Error} :
    Line.parse t = .error e ↔ ∃ h : Header t, ¬h.IsReadable := by
  constructor
  · intro hparse
    rcases nonempty_header_or t with ⟨⟨h⟩⟩ | ⟨line, hline, -⟩
    · refine ⟨h, fun hreadable => ?_⟩
      rw [h.parse_eq, if_pos hreadable] at hparse
      cases hparse
    · rw [hline] at hparse
      cases hparse
  · rintro ⟨h, hlong⟩
    rw [h.parse_eq, if_neg hlong]

/-- A line can be read if and only if it is no header whose number has too many digits. -/
theorem exists_line_iff :
    (∃ line, Line.parse t = .ok line) ↔ ∀ h : Header t, h.IsReadable := by
  cases hparse : Line.parse t with
  | error e =>
    obtain ⟨h, hlong⟩ := parse_eq_error_iff.mp hparse
    exact ⟨nofun, fun hall => absurd (hall h) hlong⟩
  | ok line =>
    refine ⟨fun _ h => Decidable.byContradiction fun hlong => ?_, fun _ => ⟨line, rfl⟩⟩
    rw [h.parse_eq, if_neg hlong] at hparse
    cases hparse

/-- Lines can be read if and only if each of them can. -/
theorem exists_lines_iff {texts : List Text} : (∃ lines, texts.mapM Line.parse = .ok lines) ↔
    ∀ t ∈ texts, ∃ line, Line.parse t = .ok line := by
  induction texts with
  | nil => exact ⟨fun _ => List.forall_mem_nil _, fun _ => ⟨[], rfl⟩⟩
  | cons t texts ih =>
    rw [List.forall_mem_cons]
    constructor
    · rintro ⟨lines, hread⟩
      obtain ⟨line, rest, hfirst, hrest, rfl⟩ :=
        List.forall₂_cons_left_iff.mp (mapM_parse_iff.mp hread)
      exact ⟨⟨line, hfirst⟩, ih.mp ⟨rest, mapM_parse_iff.mpr hrest⟩⟩
    · rintro ⟨⟨line, hfirst⟩, hothers⟩
      obtain ⟨rest, hrest⟩ := ih.mpr hothers
      exact ⟨line :: rest, mapM_parse_cons hfirst hrest⟩

/-- Blame output can be read if and only if the numbers of its headers can. -/
theorem exists_rows_iff : (∃ rows, parse output = .ok rows) ↔
    ∀ line ∈ Text.breakLines output, ∀ h : Header line, h.IsReadable := by
  simp only [← exists_line_iff, ← exists_lines_iff, parse_eq_ok_iff]
  exact ⟨fun ⟨_, lines, hlines, _⟩ => ⟨lines, hlines⟩, fun ⟨lines, hlines⟩ => ⟨_, lines, hlines, rfl⟩⟩

end DebtSurvey.Porcelain
