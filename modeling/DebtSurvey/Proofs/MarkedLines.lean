import DebtSurvey.Proofs.FileRun
import DebtSurvey.Proofs.MarkerWords

/-!
# Which lines are findings

A word is in a line where some stretch of the line is the word but for the case of its letters. Such
a stretch counts when both its ends are word boundaries: places with a word character on exactly one
side. What that asks of the neighbours depends on the stretch. Where it begins and ends with word
characters, the neighbours must not be word characters; where it begins with another character, as
in `@todo`, a word character must stand in front of it, and neither the start of the line nor a blank
will do.

## Main results

* `Marker.isSome_search_iff`: a line is marked if and only if some word is bounded in it.
* `Marker.Occurrence.isBounded_iff_isAlone`: boundaries and neighbours.
* `Scan.findings_of_lines`: the search for markers has one finding for each marked line.
-/

namespace DebtSurvey

namespace Marker

variable {word line : Text}

/-- A stretch of a line that is a word but for the case of its letters. -/
structure Occurrence (word line : Text) where
  /-- The line in front of the stretch. -/
  before : Text
  /-- The stretch. -/
  stretch : Text
  /-- The line behind the stretch. -/
  after : Text
  /-- The three are the line. -/
  line_eq : line = before ++ (stretch ++ after)
  /-- The stretch is the word, letter by letter. -/
  sameLetters : List.Forall₂ (fun w c => Text.sameLetter w c) word stretch

namespace Occurrence

variable (o : Occurrence word line)

/-- Whether both ends of the stretch are word boundaries. -/
def IsBounded : Prop :=
  Text.atBoundary o.before.getLast? o.stretch ∧ Text.atBoundary o.stretch.getLast? o.after

/-- Whether on each side of the stretch the line ends or a character follows that is not a word
character. -/
def IsAlone : Prop := ¬Text.wordBefore o.before.getLast? ∧ ¬Text.wordAfter o.after

/-- Whether the stretch begins and ends with word characters. -/
def IsWordlike : Prop := Text.wordAfter o.stretch ∧ Text.wordBefore o.stretch.getLast?

/-- Where a stretch begins and ends with word characters, its ends are boundaries if and only if it
stands alone. -/
theorem isBounded_iff_isAlone (h : o.IsWordlike) : o.IsBounded ↔ o.IsAlone := by
  unfold IsBounded IsAlone Text.atBoundary
  rw [h.1, h.2]
  simp

end Occurrence

/-- A word stands at the front of a text if the text begins with the word but for case. -/
theorem startsWith_iff {t : Text} : startsWith word t ↔
    ∃ stretch after, t = stretch ++ after ∧
      List.Forall₂ (fun w c => Text.sameLetter w c) word stretch := by
  induction word generalizing t with
  | nil => simp [startsWith]
  | cons w word ih =>
    cases t with
    | nil => simp [startsWith]
    | cons c rest =>
      simp only [startsWith, Bool.and_eq_true, ih]
      constructor
      · rintro ⟨hc, stretch, after, rfl, hsame⟩
        exact ⟨c :: stretch, after, rfl, .cons hc hsame⟩
      · rintro ⟨_, after, ht, _ | ⟨hc, hsame⟩⟩
        obtain ⟨rfl, rfl⟩ := List.cons.inj ht
        exact ⟨hc, _, after, rfl, hsame⟩

/-- A boundary in front of a text is one in front of what it begins with. -/
theorem atBoundary_append {stretch after : Text} (h : stretch ≠ []) (before : Option Char) :
    Text.atBoundary before (stretch ++ after) = Text.atBoundary before stretch := by
  obtain ⟨c, rest, rfl⟩ := List.exists_cons_of_ne_nil h
  rfl

/-- A word stands at a place, with boundaries, if the text there begins with a stretch that is the
word but for case and has boundaries as its ends. -/
theorem isSome_wordAt?_singleton (hword : word ≠ []) {before : Option Char} {t : Text} :
    (wordAt? [word] before t).isSome ↔ ∃ stretch after, t = stretch ++ after ∧
      List.Forall₂ (fun w c => Text.sameLetter w c) word stretch ∧
      Text.atBoundary before stretch ∧ Text.atBoundary stretch.getLast? after := by
  have hwidth : word.length ≠ 0 := by simpa using hword
  have hstretch : ∀ {stretch : Text},
      List.Forall₂ (fun w c => Text.sameLetter w c) word stretch → stretch ≠ [] := by
    rintro _ hsame rfl
    exact hwidth hsame.length_eq
  have hwordAt : (wordAt? [word] before t).isSome ↔
      Text.atBoundary before t ∧ standsAt word before t := by
    unfold wordAt?
    split <;> simp_all
  rw [hwordAt, standsAt, Bool.and_eq_true, startsWith_iff]
  constructor
  · rintro ⟨hfront, ⟨stretch, after, rfl, hsame⟩, hback⟩
    rw [atBoundary_append (hstretch hsame)] at hfront
    rw [beforeAfter, if_neg hwidth, hsame.length_eq, List.take_left, List.drop_left] at hback
    exact ⟨stretch, after, rfl, hsame, hfront, hback⟩
  · rintro ⟨stretch, after, rfl, hsame, hfront, hback⟩
    rw [atBoundary_append (hstretch hsame), beforeAfter, if_neg hwidth, hsame.length_eq,
      List.take_left, List.drop_left]
    exact ⟨hfront, ⟨stretch, after, rfl, hsame⟩, hback⟩

/-- The character in front of a place, where the text in front of it begins with a character. -/
theorem getLast?_cons_or (c : Char) (front : Text) (before : Option Char) :
    (c :: front).getLast?.or before = front.getLast?.or (some c) := by
  rw [List.getLast?_cons]
  cases front.getLast? <;> rfl

/-- Looking on from a place finds a word if it stands there or further on. -/
theorem isSome_searchFrom_singleton {position : Nat} {before : Option Char} {t : Text} :
    (searchFrom [word] position before t).isSome ↔
      ∃ front rest, t = front ++ rest ∧
        (wordAt? [word] (front.getLast?.or before) rest).isSome := by
  induction t generalizing position before with
  | nil => simp [searchFrom]
  | cons c t ih =>
    rw [isSome_searchFrom_cons, ih]
    constructor
    · rintro (hhere | ⟨front, rest, rfl, hlater⟩)
      · exact ⟨[], c :: t, rfl, hhere⟩
      · exact ⟨c :: front, rest, rfl, by rwa [getLast?_cons_or]⟩
    · rintro ⟨front, rest, ht, hfound⟩
      cases front with
      | nil =>
        subst ht
        exact .inl hfound
      | cons d front =>
        obtain ⟨rfl, rfl⟩ := List.cons.inj ht
        exact .inr ⟨front, rest, rfl, by rwa [getLast?_cons_or] at hfound⟩

/-- A line is marked if and only if one of the words that are not empty is in it, with a word
boundary at both ends. -/
theorem isSome_search_iff {words : List Text} (h : ¬words.all (·.isEmpty)) :
    (search words line).isSome ↔
      ∃ word ∈ words, word ≠ [] ∧ ∃ o : Occurrence word line, o.IsBounded := by
  rw [isSome_search h]
  refine exists_congr fun word => and_congr_right fun _ => and_congr_right fun hword => ?_
  simp only [isSome_searchFrom_singleton, isSome_wordAt?_singleton hword, Option.or_none]
  constructor
  · rintro ⟨before, rest, rfl, stretch, after, rfl, hsame, hfront, hback⟩
    exact ⟨⟨before, stretch, after, rfl, hsame⟩, hfront, hback⟩
  · rintro ⟨⟨before, stretch, after, rfl, hsame⟩, hfront, hback⟩
    exact ⟨before, stretch ++ after, rfl, stretch, after, rfl, hsame, hfront, hback⟩

-- a word that begins with another character than a word character is no marker at the start of a
-- line or behind a blank, but behind a letter it is
example : [("@todo" : Text), "// @todo", "x@todo"].map (search ["@todo"]) =
    [none, none, some (1, 6)] := by decide

end Marker

namespace Scan

variable {directory file commit : Text} {clock : Int} {w : World} {words : List Text} {source : Text}

open Classical in
/-- The search of a readable file for some words that are not all empty has one finding for each line
in which one of the words is, with a word boundary at both ends, in the order of the lines, unless the
blame of the file cannot be understood. Where a word is there as a stretch that begins and ends with
word characters, its ends are boundaries if and only if on each side the line ends or a character
follows that is not a word character. -/
theorem findings_of_lines (hsource : sourceOf? w.files directory file = some source)
    (hwords : ¬words.all (·.isEmpty)) :
    ((markerWork directory file commit words clock).run w).1 =
      ((History.blame directory file commit).run w).1.map (fun rows =>
        (((Text.lines source).mapIdx fun i line => (i + 1, line)).filter fun entry =>
          ∃ word ∈ words, word ≠ [] ∧ ∃ o : Marker.Occurrence word entry.2, o.IsBounded).map
            fun entry => Marker.finding file rows clock entry.1 entry.2) ∧
    ∀ word line, ∀ o : Marker.Occurrence word line, o.IsWordlike → (o.IsBounded ↔ o.IsAlone) := by
  refine ⟨?_, fun _ _ o => o.isBounded_iff_isAlone⟩
  have hsearched : markerSource? w.files directory file words = some source := by
    rw [markerSource?, if_neg hwords, hsource]
  have hmarked : ∀ entry : Nat × Text, (Marker.search words entry.2).isSome =
      decide (∃ word ∈ words, word ≠ [] ∧ ∃ o : Marker.Occurrence word entry.2, o.IsBounded) :=
    fun entry => Bool.eq_iff_iff.mpr (by rw [Marker.isSome_search_iff hwords, decide_eq_true_iff])
  rw [run_markerWork_of_some hsearched]
  simp only [Marker.findings, Marker.markedLines, hmarked]

/-- A workspace with a file of two lines, each with a word behind a blank. -/
def tagged : World where
  files := .dir [("w", .dir [("a.ts", .file (Text.Utf8.encode "// @todo\n// fixme\n"))])]

open Classical in
/-- Of the two lines only the second is a finding: in the first, no boundary is in front of the
word. -/
theorem findings_of_lines_tagged :
    ∃ found, ((markerWork "/w" "a.ts" [] ["@todo", "FIXME"] 0).run tagged).1 = .ok found ∧
      found.map (·.line) = [some 2] ∧
      found = (((Text.lines "// @todo\n// fixme\n").mapIdx fun i line => (i + 1, line)).filter
        fun entry => ∃ word ∈ [("@todo" : Text), "FIXME"], word ≠ [] ∧
          ∃ o : Marker.Occurrence word entry.2, o.IsBounded).map
            fun entry => Marker.finding "a.ts" [] 0 entry.1 entry.2 := by
  have hblame : ((History.blame "/w" "a.ts" []).run tagged).1 = .ok [] := by decide +kernel
  have hlines : ((markerWork "/w" "a.ts" [] ["@todo", "FIXME"] 0).run tagged).1.toOption.map
      (·.map (·.line)) = some [some 2] := by decide +kernel
  have hsource : sourceOf? tagged.files "/w" "a.ts" = some "// @todo\n// fixme\n" := by
    decide +kernel
  have hwords : ¬[("@todo" : Text), "FIXME"].all (·.isEmpty) := by decide
  have hfound := (@findings_of_lines "/w" "a.ts" [] 0 tagged _ _ hsource hwords).1
  rw [hblame] at hfound
  rw [hfound] at hlines
  exact ⟨_, hfound, Option.some.inj hlines, rfl⟩

end Scan

end DebtSurvey
