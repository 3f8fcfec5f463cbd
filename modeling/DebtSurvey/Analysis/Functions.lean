import DebtSurvey.Age
import DebtSurvey.Code.Complexity
import DebtSurvey.Code.Function
import DebtSurvey.Finding.Identity
import DebtSurvey.History.Porcelain

/-!
# Findings of complex functions

Every function whose complexity reaches the lowest band is one finding, on the line of its head and
with what is known of the history of that line.
-/

namespace DebtSurvey.Code

/-- What a reader is told about a complex function. -/
def complexityMessage (name : Text) (score : Nat) : Text :=
  "Function '" ++ name ++ "' has cyclomatic complexity of " ++ Text.ofNat score

/-- The finding of a function with a complexity. -/
def complexityFinding (bands : Bands Int) (file : Text) (blame : List BlameRow) (clock : Int)
    (f : Function) (score : Nat) : Finding :=
  let row := Porcelain.rowOf? blame f.line
  { id := Identity.ofParts [file, Text.ofNat f.line, Kind.complexity.name]
    kind := .complexity
    severity := bands.severity (score : Int)
    file
    message := complexityMessage f.name score
    line := some (f.line : Int)
    author := row.map (·.author)
    ageInDays := row.map fun r => Age.days r.timestamp clock
    lastCommit := row.map (·.commit) }

/-- The finding of a function, if it reaches the lowest band. -/
def complexityFinding? (bands : Bands Int) (file : Text) (blame : List BlameRow) (clock : Int)
    (f : Function) : Option Finding :=
  let score := complexity f.body
  if bands.low ≤ (score : Int) then some (complexityFinding bands file blame clock f score)
  else none

/-- The findings among some functions. -/
def complexityFindings (bands : Bands Int) (file : Text) (functions : List Function)
    (blame : List BlameRow) (clock : Int) : List Finding :=
  functions.filterMap (complexityFinding? bands file blame clock)

end DebtSurvey.Code
