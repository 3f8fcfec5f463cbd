import DebtSurvey.Imports.Graph
import DebtSurvey.Finding.Basic

/-!
# Statistics

Findings are counted by kind and by severity, and the files they are in are ranked by a score. Files
of equal score stand in the order in which they are first met, and at most ten files are listed.
-/

namespace DebtSurvey

/-- A file with findings. -/
structure HotFile where
  /-- The file. -/
  file : Text
  /-- Its score. -/
  score : Nat
  /-- How many files import it. -/
  importCount : Int
  /-- Its findings, in order. -/
  findings : List Finding
deriving DecidableEq, Repr, Inhabited

/-- What there is to say about all findings together. -/
structure Stats where
  /-- The number of findings. -/
  total : Nat
  /-- The number of findings of each kind. -/
  byKind : List (Kind × Nat)
  /-- The number of findings of each severity. -/
  bySeverity : List (Severity × Nat)
  /-- The hottest files, the hottest first. -/
  hotFiles : List HotFile
deriving DecidableEq, Repr, Inhabited

namespace Stats

/-- The greatest score. -/
def maxScore : Nat := 100

/-- How many files are listed. -/
def hotFileLimit : Nat := 10

/-- The score of findings of some severities: the sum of their weights, up to the greatest score. -/
def score (severities : List Severity) : Nat :=
  min maxScore (severities.foldl (fun total s => total + s.weight) 0)

/-- The files of some findings, in the order in which they are first met. -/
def filesOf (findings : List Finding) : List Text := (findings.map (·.file)).eraseDups

/-- A file with its findings among others. -/
def hotFile (findings : List Finding) (fanIn : FanIn) (file : Text) : HotFile :=
  let own := findings.filter (·.file = file)
  ⟨file, score (own.map (·.severity)), fanIn.count file, own⟩

/-- All files with findings, by falling score. -/
def ranking (findings : List Finding) (fanIn : FanIn) : List HotFile :=
  ((filesOf findings).map (hotFile findings fanIn)).mergeSort fun a b => b.score ≤ a.score

/-- The statistics of some findings. -/
def ofFindings (findings : List Finding) (fanIn : FanIn) : Stats where
  total := findings.length
  byKind := Kind.all.map fun k => (k, findings.countP (·.kind = k))
  bySeverity := Severity.all.map fun s => (s, findings.countP (·.severity = s))
  hotFiles := (ranking findings fanIn).take hotFileLimit

end Stats

/-- The outcome of a scan. -/
structure DebtMap where
  /-- The findings, in order. -/
  findings : List Finding
  /-- When the scan ended, in milliseconds since the epoch. -/
  scannedAt : Int
  /-- The commit that was scanned; empty where it is not known. -/
  commit : Text
  /-- The statistics of the findings. -/
  stats : Stats
deriving DecidableEq, Repr, Inhabited

end DebtSurvey
