import DebtSurvey.Age
import DebtSurvey.Code.Marker
import DebtSurvey.Finding.Identity
import DebtSurvey.History.Porcelain
import DebtSurvey.Text.Blank

/-!
# Findings of marker words

Every line that carries a marker is one finding, with the age, author and commit of the line where
its blame is known. A line without blame counts as brand new.
-/

namespace DebtSurvey.Marker

/-- The finding of a line with a marker. -/
def finding (file : Text) (blame : List BlameRow) (clock : Int) (number : Nat) (line : Text) :
    Finding :=
  let row := Porcelain.rowOf? blame number
  let age := (row.map fun r => Age.days r.timestamp clock).getD 0
  { id := Identity.ofParts [file, Text.ofNat number, Kind.todo.name]
    kind := .todo
    severity := severity age
    file
    message := Text.trim line
    line := some (number : Int)
    author := row.map (·.author)
    ageInDays := some age
    lastCommit := row.map (·.commit) }

/-- The lines of a text that carry a marker, with their numbers. -/
def markedLines (words : List Text) (source : Text) : List (Nat × Text) :=
  ((Text.lines source).mapIdx fun i line => (i + 1, line)).filter fun (_, line) =>
    (search words line).isSome

/-- The findings in a source text. -/
def findings (words : List Text) (file source : Text) (blame : List BlameRow) (clock : Int) :
    List Finding :=
  (markedLines words source).map fun (number, line) => finding file blame clock number line

end DebtSurvey.Marker
