import DebtSurvey.Proofs.FileRun
import DebtSurvey.Proofs.MarkerWords
import DebtSurvey.Proofs.SourceLines
import Mathlib.Data.List.Sort

/-!
# Lists of marker words

The words that are looked for are tried in order, and the first that stands at a place is taken. That
decides where a marker ends, but not which lines have one: at a place where one word does not end at
a boundary, a longer one may, and it is found there whatever was tried before. So a list of words
stands for the set of those that are not empty, and two lists one after the other for the union.

Findings in the order of their lines, with no two on one line, are decided by which ones they are.
So all that has to be known of a list is which lines it marks.

## Main results

* `Marker.marks_append`: two lists together mark the lines that one of them marks.
* `Scan.mem_markersIn`, `Scan.pairwise_markersIn`: the findings of a list of words.
* `Scan.markers_of_lists`: the findings of two lists together are those of either.
-/

namespace DebtSurvey

/-- A finding is on a line above that of another. -/
def Finding.IsAbove (x y : Finding) : Prop := ∃ m ∈ x.line, ∃ n ∈ y.line, m < n

instance : Std.Irrefl Finding.IsAbove where
  irrefl x h := by
    obtain ⟨m, hm, n, hn, hlt⟩ := h
    obtain rfl := Option.mem_unique hm hn
    exact Int.lt_irrefl m hlt

instance : Std.Antisymm Finding.IsAbove where
  antisymm x y hxy hyx := by
    obtain ⟨m, hm, n, hn, hlt⟩ := hxy
    obtain ⟨k, hk, l, hl, hgt⟩ := hyx
    obtain rfl := Option.mem_unique hm hl
    obtain rfl := Option.mem_unique hn hk
    exact absurd hlt (Int.lt_asymm hgt)

namespace Marker

variable {words others : List Text} {line : Text}

/-- Some words mark a line when one that is not empty is found in it. Without any such word no line
is marked. -/
def Marks (words : List Text) (line : Text) : Prop :=
  ∃ word ∈ words, word ≠ [] ∧ (searchFrom [word] 0 none line).isSome

/-- Words that are all empty mark no line. -/
theorem not_marks_of_all_isEmpty (h : words.all (·.isEmpty)) : ¬Marks words line := by
  rintro ⟨word, hword, hne, -⟩
  exact hne (List.isEmpty_iff.mp (List.all_eq_true.mp h word hword))

/-- Two lists together mark the lines that one of them marks. -/
theorem marks_append {first second : List Text} :
    Marks (first ++ second) line ↔ Marks first line ∨ Marks second line := by
  simp only [Marks, List.mem_append, or_and_right, exists_or]

/-- Which lines are marked is decided by which words there are that are not empty. -/
theorem marks_congr (h : ∀ word, word ≠ [] → (word ∈ words ↔ word ∈ others)) :
    Marks words line ↔ Marks others line := by
  refine exists_congr fun word => ?_
  by_cases hne : word = []
  · simp [hne]
  · rw [h word hne]

/-- The findings of markers stand in the order of their lines, no two on one line. -/
theorem pairwise_findings (words : List Text) (file source : Text) (rows : List BlameRow)
    (clock : Int) : (findings words file source rows clock).Pairwise Finding.IsAbove :=
  (pairwise_markedLines words source).map _ fun _ _ h => ⟨_, rfl, _, rfl, Int.ofNat_lt.mpr h⟩

end Marker

namespace Scan

variable {directory file commit : Text} {clock : Int} {w : World} {rows : List BlameRow}

/-- What the search for markers finds in a file, if its blame has some rows. -/
def markersIn (files : Node) (directory file : Text) (rows : List BlameRow) (clock : Int)
    (words : List Text) : List Finding :=
  ((markerSource? files directory file words).map fun source =>
    Marker.findings words file source rows clock).getD []

/-- The search for markers finds what it finds with the rows of the blame. -/
theorem run_markerWork_of_blame
    (hblame : ((History.blame directory file commit).run w).1 = .ok rows) (words : List Text) :
    ((markerWork directory file commit words clock).run w).1 =
      .ok (markersIn w.files directory file rows clock words) := by
  rw [fst_run_markerWork, hblame, markersIn]
  cases markerSource? w.files directory file words <;> rfl

/-- The findings of some words are those of the lines that the words mark. -/
theorem mem_markersIn {files : Node} {words : List Text} {x : Finding} :
    x ∈ markersIn files directory file rows clock words ↔
      ∃ source n line, sourceOf? files directory file = some source ∧
        (Text.lines source)[n]? = some line ∧ Marker.Marks words line ∧
        x = Marker.finding file rows clock (n + 1) line := by
  unfold markersIn markerSource?
  split
  · rename_i hwords
    -- the file is not read, and it would make no difference
    simp [Marker.not_marks_of_all_isEmpty hwords]
  · rename_i hwords
    cases sourceOf? files directory file with
    | none => simp
    | some source =>
      simp only [Option.map_some, Option.getD_some, Marker.mem_findings, Marker.isSome_search hwords,
        Option.some.injEq, exists_and_left, exists_eq_left']
      rfl

/-- The findings of some words stand in the order of their lines, no two on one line. -/
theorem pairwise_markersIn (files : Node) (words : List Text) :
    (markersIn files directory file rows clock words).Pairwise Finding.IsAbove := by
  unfold markersIn
  cases markerSource? files directory file words with
  | none => exact .nil
  | some source => exact Marker.pairwise_findings words file source rows clock

/-- Lists of marker words combine as sets. Whatever the file and the rows of its blame, the search
for markers finds something for every list of words, in the order of the lines and at most once on
each. Two lists one after the other find what one of them finds. Lists that differ in order,
repetitions and empty words only find the same. -/
theorem markers_of_lists
    (hblame : ((History.blame directory file commit).run w).1 = .ok rows) :
    ∃ found : List Text → List Finding,
      (∀ words, ((markerWork directory file commit words clock).run w).1 = .ok (found words)) ∧
      (∀ words, (found words).Pairwise Finding.IsAbove) ∧
      (∀ first second x, x ∈ found (first ++ second) ↔ x ∈ found first ∨ x ∈ found second) ∧
      ∀ words others, (∀ word, word ≠ [] → (word ∈ words ↔ word ∈ others)) →
        found words = found others := by
  refine ⟨markersIn w.files directory file rows clock, run_markerWork_of_blame hblame,
    pairwise_markersIn w.files, fun first second x => ?_, fun words others hsame => ?_⟩
  · simp only [mem_markersIn, Marker.marks_append, or_and_right, and_or_left, exists_or]
  · -- findings in the order of their lines are the same if they are the same as a set
    refine (pairwise_markersIn w.files words).eq_of_mem_iff (pairwise_markersIn w.files others) ?_
    intro x
    simp only [mem_markersIn, Marker.marks_congr hsame]

/-- A workspace with a file of three lines, in which a word and a longer one take turns. -/
def wordInWord : World where
  files := .dir [("w", .dir [("a.ts", .file (Text.Utf8.encode "// TODO a\n// TO b\n// to TODO\n"))])]

/-- The shorter of the words. -/
def shortWord : List Text := ["TO"]

/-- The longer of the words, and an empty one. -/
def longWord : List Text := [[], "TODO"]

/-- The shorter word is on the last two lines and the longer one on the first and the last. Both
together are on all three, the last one of which is one finding. -/
theorem markers_of_lists_wordInWord :
    ((History.blame "/w" "a.ts" []).run wordInWord).1 = .ok [] ∧
      ∃ found : List Text → List Finding,
        (∀ words, ((markerWork "/w" "a.ts" [] words 0).run wordInWord).1 = .ok (found words)) ∧
        (found shortWord).map (·.line) = [some 2, some 3] ∧
        (found longWord).map (·.line) = [some 1, some 3] ∧
        (found (shortWord ++ longWord)).map (·.line) = [some 1, some 2, some 3] ∧
        (∀ x, x ∈ found (shortWord ++ longWord) ↔ x ∈ found shortWord ∨ x ∈ found longWord) ∧
        found (longWord ++ shortWord ++ longWord) = found (shortWord ++ longWord) := by
  have hblame : ((History.blame "/w" "a.ts" []).run wordInWord).1 = .ok [] := by decide +kernel
  obtain ⟨found, hfound, -, hunion, hsame⟩ := @markers_of_lists "/w" "a.ts" [] 0 wordInWord [] hblame
  -- the lines of what is found can be read off the search
  have hlines : ∀ words, (found words).map (·.line) =
      (Scan.found ((markerWork "/w" "a.ts" [] words 0).run wordInWord).1).map (·.line) := by
    intro words
    rw [hfound words]
    rfl
  refine ⟨hblame, found, hfound, ?_, ?_, ?_, hunion _ _, hsame _ _ fun word hword => ?_⟩
  · rw [hlines]
    decide +kernel
  · rw [hlines]
    decide +kernel
  · rw [hlines]
    decide +kernel
  · simp only [List.mem_append]
    tauto

end Scan

end DebtSurvey
