import DebtSurvey.Code.Complexity
import DebtSurvey.Code.Marker
import DebtSurvey.Text.CodePoint

/-!
# Settings

What a user can choose: which words are markers, which files are looked at, when a function is
complex and a file stale, and how dependencies are audited.

What is chosen in a document are preferences. They differ from settings in their strings alone:
those of a document may hold halves of surrogate pairs. No line, name or command does, so a scan
that follows preferences looks for something that does not occur there either.
-/

namespace DebtSurvey

/-- The settings of a scan. -/
structure Settings where
  /-- From how many days on a file is stale. -/
  staleDays : Int := 365
  /-- How many files must import a stale file. -/
  staleImports : Int := 5
  /-- The bands of complexity. -/
  bands : Code.Bands Int := Code.Bands.standard
  /-- The marker words. -/
  markerWords : List Text := Marker.standardWords
  /-- Patterns of files that are left out. -/
  excludes : List Text := ["**/node_modules/**", "**/dist/**", "**/.git/**"]
  /-- How many files are looked at. -/
  fileLimit : Int := 5000
  /-- The command that audits dependencies. -/
  auditCommand : List Text := ["npm", "audit", "--json"]
deriving DecidableEq, Repr, Inhabited

/-- What a document chooses for a scan. -/
structure Preferences where
  /-- From how many days on a file is stale. -/
  staleDays : Int := ({} : Settings).staleDays
  /-- How many files must import a stale file. -/
  staleImports : Int := ({} : Settings).staleImports
  /-- The bands of complexity. -/
  bands : Code.Bands Int := ({} : Settings).bands
  /-- The marker words. -/
  markerWords : List DocText := ({} : Settings).markerWords.map DocText.ofText
  /-- Patterns of files that are left out. -/
  excludes : List DocText := ({} : Settings).excludes.map DocText.ofText
  /-- How many files are looked at. -/
  fileLimit : Int := ({} : Settings).fileLimit
  /-- The command that audits dependencies. -/
  auditCommand : List DocText := ({} : Settings).auditCommand.map DocText.ofText
deriving DecidableEq, Repr, Inhabited

/-- The settings of a scan that follows preferences. Lines hold no newline, and names and commands
no null character. -/
def Preferences.settings (p : Preferences) : Settings where
  staleDays := p.staleDays
  staleImports := p.staleImports
  bands := p.bands
  markerWords := p.markerWords.map (DocText.spell '\n')
  excludes := p.excludes.map (DocText.spell '\x00')
  fileLimit := p.fileLimit
  auditCommand := p.auditCommand.map (DocText.spell '\x00')

/-- Without any choice the settings are the standard ones. -/
@[simp]
theorem Preferences.settings_default : ({} : Preferences).settings = {} := by
  simp [settings, Function.comp_def]

end DebtSurvey
