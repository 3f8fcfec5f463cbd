import DebtSurvey.Text.Basic

/-!
# Findings

A finding is one piece of technical debt: what kind it is, how severe, in which file, and what is
known about its place and history. Place and history are optional, each part on its own.
-/

namespace DebtSurvey

/-- The kinds of debt, in the order of reports. -/
inductive Kind where
  /-- A line with a marker word. -/
  | todo
  /-- A function with many decision points. -/
  | complexity
  /-- A dependency with a known vulnerability. -/
  | dep
  /-- A file that is old and imported by many. -/
  | stale
deriving DecidableEq, Repr, Inhabited

namespace Kind

/-- All kinds, in the order of reports. -/
def all : List Kind := [.todo, .complexity, .dep, .stale]

/-- The name of a kind in reports. -/
def name : Kind → Text
  | .todo => "todo"
  | .complexity => "complexity"
  | .dep => "dep"
  | .stale => "stale"

/-- The kind of a name. -/
def ofName? (t : Text) : Option Kind := all.find? (·.name = t)

/-- Every kind is listed. -/
theorem mem_all (k : Kind) : k ∈ all := by cases k <;> decide

/-- A kind is found by its name. -/
theorem ofName?_name (k : Kind) : ofName? k.name = some k := by cases k <;> decide

end Kind

/-- How severe a finding is, the worst first. -/
inductive Severity where
  /-- To be dealt with first. -/
  | critical
  /-- Worse than most. -/
  | high
  /-- Worth a look. -/
  | medium
  /-- For the record. -/
  | low
deriving DecidableEq, Repr, Inhabited

namespace Severity

/-- All severities, the worst first. -/
def all : List Severity := [.critical, .high, .medium, .low]

/-- The name of a severity in reports. -/
def name : Severity → Text
  | .critical => "critical"
  | .high => "high"
  | .medium => "medium"
  | .low => "low"

/-- The severity of a name. -/
def ofName? (t : Text) : Option Severity := all.find? (·.name = t)

/-- What a finding of a severity adds to the score of its file. -/
def weight : Severity → Nat
  | .critical => 25
  | .high => 10
  | .medium => 5
  | .low => 2

/-- The place of a severity among all, zero for the mildest. -/
def rank : Severity → Nat
  | .critical => 3
  | .high => 2
  | .medium => 1
  | .low => 0

/-- Severities are ordered by rank. -/
instance : LE Severity := ⟨fun s t => s.rank ≤ t.rank⟩

instance (s t : Severity) : Decidable (s ≤ t) := inferInstanceAs (Decidable (s.rank ≤ t.rank))

/-- Every severity is listed. -/
theorem mem_all (s : Severity) : s ∈ all := by cases s <;> decide

/-- A severity is found by its name. -/
theorem ofName?_name (s : Severity) : ofName? s.name = some s := by cases s <;> decide

end Severity

/-- One piece of technical debt. -/
structure Finding where
  /-- A digest of what makes the finding the one it is. -/
  id : Text
  /-- The kind of debt. -/
  kind : Kind
  /-- How severe it is. -/
  severity : Severity
  /-- The file it is in, relative to the workspace. -/
  file : Text
  /-- What a reader is told about it. -/
  message : Text
  /-- The line it is on, counted from one. -/
  line : Option Int := none
  /-- Who wrote the line. -/
  author : Option Text := none
  /-- How many whole days ago the line or file was last changed. -/
  ageInDays : Option Int := none
  /-- The commit that last changed it. -/
  lastCommit : Option Text := none
deriving DecidableEq, Repr, Inhabited

end DebtSurvey
