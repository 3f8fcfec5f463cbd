import DebtSurvey.Settings.Reader
import DebtSurvey.World
import DebtSurvey.Yaml.Document

/-!
# The settings of a workspace

A workspace may hold a settings document, and a reader gives the plain value of its bytes. Without a
document, and where it is malformed or no map, nothing is set; where a value cannot be used, all
settings have their defaults. Both are noted. A document whose reader fails in any other way, and an
infinite number, are faults.
-/

namespace DebtSurvey.Settings

/-- The name of the settings document. -/
def documentName : Text := ".debtradar.yml"

/-- A reader of settings documents. -/
abbrev Reader := List UInt8 → Except Yaml.Error Datum

/-- Why settings cannot be loaded. -/
inductive LoadFault where
  /-- The document cannot be opened. -/
  | path (cause : PathError)
  /-- The document cannot be read. -/
  | document (cause : Yaml.Error)
  /-- A setting is an infinite number. -/
  | infiniteNumber
deriving DecidableEq, Repr

section Load

variable (read : Reader) (files : Node)

/-- The value of the settings document at a path, if there is one. -/
def readDocument (path : Text) : Except LoadFault (Option (Except Yaml.Error Datum)) :=
  if files.hasPath path then
    match files.read path with
    | .error e => .error (.path e)
    | .ok bytes => .ok (some (read bytes))
  else .ok none

/-- The entries that the settings document at a path sets, and what there is to note. -/
def readEntries (path : Text) : Except LoadFault (List (Datum × Datum) × Option Event) := do
  match ← readDocument read files path with
  | none => return ([], none)
  | some (.error .malformed) => return ([], some (.settingsMalformed path))
  | some (.error cause) => throw (.document cause)
  | some (.ok (.map entries)) => return (entries, none)
  | some (.ok value) =>
    return ([], if value.isBlank then none else some (.settingsNotMapping path))

/-- The preferences that entries tell of, the defaults where they cannot be used, and what there is
to note. -/
def settle (path : Text) (entries : List (Datum × Datum)) :
    Except LoadFault (Preferences × Option Event) :=
  match ofEntries entries with
  | .ok preferences => .ok (preferences, none)
  | .error .infiniteNumber => .error .infiniteNumber
  | .error _ => .ok ({}, some (.settingsInvalid path))

/-- The preferences of the workspace at a directory, and what there is to note, in order. -/
def load (directory : Text) : Except LoadFault Preferences × List Event :=
  let path := Path.append directory documentName
  match readEntries read files path with
  | .error fault => (.error fault, [])
  | .ok (entries, noted) =>
    match settle path entries with
    | .error fault => (.error fault, noted.toList)
    | .ok (preferences, event) => (.ok preferences, noted.toList ++ event.toList)

end Load

end DebtSurvey.Settings
