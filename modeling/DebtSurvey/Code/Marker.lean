import DebtSurvey.Text.Case
import DebtSurvey.Text.Word
import DebtSurvey.Finding.Basic

/-!
# Marker words

A line carries a marker when one of the marker words occurs in it, whatever the case of its letters,
with a word boundary on each side. Where several words could be found, the leftmost place counts,
and at one place the word that is listed first.
-/

namespace DebtSurvey.Marker

/-- The usual marker words. -/
def standardWords : List Text := ["TODO", "FIXME", "HACK", "XXX", "TEMP"]

/-- Whether a word stands at the front of a text, whatever the case. -/
def startsWith : Text → Text → Bool
  | [], _ => true
  | _ :: _, [] => false
  | w :: word, c :: rest => Text.sameLetter w c && startsWith word rest

/-- The character before the place `width` characters further on. -/
def beforeAfter (before : Option Char) (width : Nat) (t : Text) : Option Char :=
  if width = 0 then before else (t.take width).getLast?

/-- Whether a word stands at a place with a boundary behind it. -/
def standsAt (word : Text) (before : Option Char) (t : Text) : Bool :=
  startsWith word t &&
    Text.atBoundary (beforeAfter before word.length t) (t.drop word.length)

/-- The words that count: empty ones do not. Without any, the empty word itself is looked for. -/
def alternatives (words : List Text) : List Text :=
  match words.filter (!·.isEmpty) with
  | [] => [[]]
  | some_ :: rest => some_ :: rest

/-- The first listed word that stands at a place. -/
def wordAt? (words : List Text) (before : Option Char) (t : Text) : Option Text :=
  if Text.atBoundary before t then words.find? (standsAt · before t) else none

/-- Look for a word from a position on. -/
def searchFrom (words : List Text) (position : Nat) (before : Option Char) :
    Text → Option (Nat × Nat)
  | [] => (wordAt? words before []).map fun w => (position, position + w.length)
  | c :: rest =>
    match wordAt? words before (c :: rest) with
    | some w => some (position, position + w.length)
    | none => searchFrom words (position + 1) (some c) rest

/-- Where the first marker of a line starts and ends. -/
def search (words : List Text) (line : Text) : Option (Nat × Nat) :=
  searchFrom (alternatives words) 0 none line

/-- The severity of a marker by its age in days. -/
def severity {α : Type} [NatCast α] [LT α] [DecidableLT α] (ageInDays : α) : Severity :=
  if ((365 : Nat) : α) < ageInDays then .critical
  else if ((180 : Nat) : α) < ageInDays then .high
  else if ((30 : Nat) : α) < ageInDays then .medium
  else .low

end DebtSurvey.Marker
