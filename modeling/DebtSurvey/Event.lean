import DebtSurvey.Command

/-!
# Events

What the program notes about its own work: what could not be read, run or understood, and how far it
went. An event has a weight, a topic, and a sentence with places for its details.
-/

namespace DebtSurvey

/-- How much an event matters. -/
inductive Weight where
  /-- Of use when looking for a fault. -/
  | debug
  /-- The normal course of things. -/
  | info
  /-- Something is left out. -/
  | warning
  /-- A part of the work broke off. -/
  | error
deriving DecidableEq, Repr

/-- Which part of the work an event belongs to. -/
inductive Topic where
  /-- Reading settings. -/
  | settings
  /-- Asking for history. -/
  | history
  /-- Looking for markers. -/
  | markers
  /-- Looking at functions. -/
  | complexity
  /-- Auditing dependencies. -/
  | dependencies
  /-- Following imports. -/
  | imports
  /-- Looking for stale files. -/
  | staleness
  /-- Scanning as a whole. -/
  | scan
deriving DecidableEq, Repr

/-- Something noted. -/
inductive Event where
  /-- The workspace has no history. -/
  | noRepository (root : Text) (cause : CommandError)
  /-- The current commit is not known. -/
  | noCurrentCommit (cause : CommandError)
  /-- A file has no blame. -/
  | noBlame (file : Text) (cause : CommandError)
  /-- A file has no last commit. -/
  | noLastCommit (file : Text) (cause : CommandError)
  /-- The date of a file's last commit cannot be read. -/
  | badCommitDate (date file : Text)
  /-- A file could not be searched for markers. -/
  | markersSkipped (file : Text)
  /-- A file could not be searched for functions. -/
  | functionsSkipped (file : Text)
  /-- The imports of a file are not known. -/
  | importsSkipped (file : Text)
  /-- The audit could not be run. -/
  | auditFailed (cause : CommandError)
  /-- The audit's output cannot be used. -/
  | auditUnusable
  /-- The number of stale files. -/
  | staleFound (count : Nat)
  /-- The settings are no document. -/
  | settingsMalformed (path : Text)
  /-- The settings are no mapping. -/
  | settingsNotMapping (path : Text)
  /-- A setting has a value that cannot be used. -/
  | settingsInvalid (path : Text)
  /-- Not all files are looked at. -/
  | limited (limit : Int) (total : Nat)
  /-- Features that need history are off. -/
  | historyDisabled
  /-- A scan starts. -/
  | scanStarted (total : Nat) (commit : Text)
  /-- The findings of a file are lost. -/
  | fileLost (file : Text)
deriving DecidableEq, Repr

/-- A detail of an event. -/
inductive Detail where
  /-- A number. -/
  | number (value : Int)
  /-- A text. -/
  | text (value : Text)
  /-- A cause that is not worded here. -/
  | cause
deriving DecidableEq, Repr

/-- What a user is told when the workspace has no history. -/
def noHistoryNotice : Text := "Git repository not detected. Some features will be disabled."

namespace Event

/-- How much an event matters. -/
def weight : Event → Weight
  | .noRepository .. | .noBlame .. | .noLastCommit .. | .badCommitDate .. | .importsSkipped ..
  | .staleFound .. => .debug
  | .limited .. | .historyDisabled | .scanStarted .. => .info
  | .fileLost .. => .error
  | _ => .warning

/-- Which part of the work an event belongs to. -/
def topic : Event → Topic
  | .noRepository .. | .noCurrentCommit .. | .noBlame .. | .noLastCommit ..
  | .badCommitDate .. => .history
  | .markersSkipped .. => .markers
  | .functionsSkipped .. => .complexity
  | .importsSkipped .. => .imports
  | .auditFailed .. | .auditUnusable => .dependencies
  | .staleFound .. => .staleness
  | .settingsMalformed .. | .settingsNotMapping .. | .settingsInvalid .. => .settings
  | .limited .. | .historyDisabled | .scanStarted .. | .fileLost .. => .scan

/-- The sentence of an event, with a mark where each detail goes. -/
def sentence : Event → Text
  | .noRepository .. => "%s is not a git repository: %s"
  | .noCurrentCommit .. => "Failed to get current commit SHA: %s"
  | .noBlame .. => "Failed to get blame for %s: %s"
  | .noLastCommit .. => "Failed to read history for %s: %s"
  | .badCommitDate .. => "Unparseable commit date %r for %s"
  | .markersSkipped .. => "Failed to analyze TODOs in %s: %s"
  | .functionsSkipped .. => "Failed to analyze complexity in %s: %s"
  | .importsSkipped .. => "Skipping %s in import graph: %s"
  | .auditFailed .. => "Dependency audit failed: %s"
  | .auditUnusable => "Dependency audit returned malformed output: %s"
  | .staleFound .. => "Staleness pass flagged %d files"
  | .settingsMalformed .. => "Ignoring malformed %s: %s"
  | .settingsNotMapping .. => "Ignoring %s: expected a mapping at top level"
  | .settingsInvalid .. => "Invalid values in %s (%s); using defaults"
  | .limited .. => "Scanning the first %d of %d files"
  | .historyDisabled => noHistoryNotice
  | .scanStarted .. => "Scanning %d files at %s"
  | .fileLost .. => "Analyzer crashed on %s"

/-- The details of an event, in the order of their marks. -/
def details : Event → List Detail
  | .noRepository root cause => [.text root, .text cause.message]
  | .noCurrentCommit cause => [.text cause.message]
  | .noBlame file cause => [.text file, .text cause.message]
  | .noLastCommit file cause => [.text file, .text cause.message]
  | .badCommitDate date file => [.text date, .text file]
  | .markersSkipped file => [.text file, .cause]
  | .functionsSkipped file => [.text file, .cause]
  | .importsSkipped file => [.text file, .cause]
  | .auditFailed cause => [.text cause.message]
  | .auditUnusable => [.cause]
  | .staleFound count => [.number count]
  | .settingsMalformed path => [.text path, .cause]
  | .settingsNotMapping path => [.text path]
  | .settingsInvalid path => [.text path, .cause]
  | .limited limit total => [.number limit, .number total]
  | .historyDisabled => []
  | .scanStarted total commit =>
    [.number total, .text (if commit.isEmpty then "<no commit>" else commit)]
  | .fileLost file => [.text file]

end Event

end DebtSurvey
