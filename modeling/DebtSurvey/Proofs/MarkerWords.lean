import DebtSurvey.Code.Marker

/-!
# Which lines are marked

A line is marked when one of the words occurs in it; which word is found, and where, depends on their
order, but whether one is found does not. So with fewer words fewer lines are marked. The empty list
of words is no list of fewer words: then the empty word is looked for, which every word boundary has.

## Main results

* `Marker.isSome_search`: a line is marked if and only if one of the words is found in it.
* `Marker.isSome_search_of_subset`: more words mark more lines.
-/

namespace DebtSurvey.Marker

variable {words : List Text}

/-- Some word stands at a place if and only if one of them does. -/
theorem isSome_wordAt? (before : Option Char) (t : Text) :
    (wordAt? words before t).isSome ↔ ∃ word ∈ words, (wordAt? [word] before t).isSome := by
  unfold wordAt?
  split <;> simp [List.find?_isSome]

/-- Looking on from a place finds a word if one stands there, or if one stands further on. -/
theorem isSome_searchFrom_cons (position : Nat) (before : Option Char) (c : Char) (rest : Text) :
    (searchFrom words position before (c :: rest)).isSome ↔
      (wordAt? words before (c :: rest)).isSome ∨
        (searchFrom words (position + 1) (some c) rest).isSome := by
  rw [searchFrom]
  cases wordAt? words before (c :: rest) <;> simp

/-- Looking on from a place finds a word if and only if it finds one of them. -/
theorem isSome_searchFrom (position : Nat) (before : Option Char) (t : Text) :
    (searchFrom words position before t).isSome ↔
      ∃ word ∈ words, (searchFrom [word] position before t).isSome := by
  induction t generalizing position before with
  | nil =>
    simp only [searchFrom, Option.isSome_map]
    exact isSome_wordAt? before []
  | cons c rest ih =>
    simp only [isSome_searchFrom_cons]
    rw [isSome_wordAt?, ih, ← exists_or]
    simp only [and_or_left]

/-- With words that are not all empty, those that are not empty are looked for. -/
theorem alternatives_eq (h : ¬words.all (·.isEmpty)) :
    alternatives words = words.filter (!·.isEmpty) := by
  unfold alternatives
  split
  · rename_i hnone
    refine absurd ?_ h
    simpa using hnone
  · rename_i hsome
    exact hsome.symm

/-- A line is marked if and only if one of the words that are not empty is found in it. -/
theorem isSome_search (h : ¬words.all (·.isEmpty)) (line : Text) :
    (search words line).isSome ↔
      ∃ word ∈ words, word ≠ [] ∧ (searchFrom [word] 0 none line).isSome := by
  rw [search, alternatives_eq h, isSome_searchFrom]
  simp [and_assoc]

/-- With more words, too, there is one to look for. -/
theorem not_all_isEmpty_of_subset {fewer : List Text} (hsubset : fewer ⊆ words)
    (h : ¬fewer.all (·.isEmpty)) : ¬words.all (·.isEmpty) := fun hall => h <|
  List.all_eq_true.mpr fun word hword => List.all_eq_true.mp hall word (hsubset hword)

/-- More words mark more lines. -/
theorem isSome_search_of_subset {fewer : List Text} (hsubset : fewer ⊆ words)
    (hfewer : ¬fewer.all (·.isEmpty)) {line : Text} (h : (search fewer line).isSome) :
    (search words line).isSome := by
  obtain ⟨word, hword, hfound⟩ := (isSome_search hfewer line).mp h
  exact (isSome_search (not_all_isEmpty_of_subset hsubset hfewer) line).mpr
    ⟨word, hsubset hword, hfound⟩

end DebtSurvey.Marker
