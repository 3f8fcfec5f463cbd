import DebtSurvey.Analysis.Audit
import DebtSurvey.Analysis.Staleness
import DebtSurvey.Scan.FileWork
import DebtSurvey.Scan.Pool
import DebtSurvey.Scan.Selection
import DebtSurvey.Stats

/-!
# Scanning

A scan looks at every source file of a workspace, audits its dependencies, and looks for stale
files; the findings stand in that order, those of files in the order of discovery. The work on the
files is done by a pool. A job that breaks off costs the findings of its file only, and that is
noted; any other failure ends the scan.
-/

namespace DebtSurvey.Scan

/-- Why a scan ends without a result. -/
inductive Fault where
  /-- There is no directory to scan. -/
  | noWorkspace (root : Text)
  /-- The files cannot be found. -/
  | discovery (cause : Workspace.DiscoveryError)
  /-- A blame cannot be understood. -/
  | blame (cause : Porcelain.Error)
  /-- The audit broke off. -/
  | audit (cause : Audit.Fault)
  /-- An age cannot be computed. -/
  | age (cause : NumberError)
deriving DecidableEq, Repr

/-- What is said about a workspace that is not there. -/
def noWorkspaceMessage (root : Text) : Text := "No workspace folder at " ++ root

/-- A part of a session: it changes the world, and ends with a result or a fault. -/
abbrev Action (α : Type) := ExceptT Fault (StateM World) α

namespace Action

variable {α ε : Type}

/-- A part that cannot fail. -/
def always (act : World → α × World) : Action α := fun w =>
  let (a, w) := act w
  (.ok a, w)

/-- A part that may fail for a reason of its own. -/
def orFault (toFault : ε → Fault) (act : World → Except ε α × World) : Action α := fun w =>
  let (result, w) := act w
  (result.mapError toFault, w)

end Action

/-- How far a scan has come: how many files of all are done, and the last of them. -/
structure Progress where
  /-- How many files are done. -/
  processed : Nat
  /-- How many files there are. -/
  total : Nat
  /-- The file that was done last. -/
  file : Text
deriving DecidableEq, Repr, Inhabited

/-- Tell the user once that the workspace has no history. -/
def tellNoHistory (w : World) : World :=
  if w.noticed then w
  else { w.note .historyDisabled with noticed := true, notices := w.notices ++ [noHistoryNotice] }

/-- The current commit of a workspace that must be there; empty without a history, which the user is
told. -/
def currentCommit (root : Text) (w : World) : Except Fault Text × World :=
  if w.files.hasDirectory root then
    match History.isRepository root w with
    | (true, w) =>
      let (commit, w) := History.currentCommit root w
      (.ok commit, w)
    | (false, w) => (.ok [], tellNoHistory w)
  else (.error (.noWorkspace root), w)

/-- The files of a scan. -/
def selectFiles [Glob.Dialect] (root : Text) (settings : Settings) (w : World) :
    Except Workspace.DiscoveryError (List Text) × World :=
  match sourceFiles w.files root settings with
  | .error e => (.error e, w)
  | .ok (files, event) => (.ok files, { w with events := w.events ++ event.toList })

/-- What the reports of finished jobs say, in the order of the reports. -/
def progress (schedule : Schedule) (files : List Text) : List Progress :=
  (schedule.order files.length).mapIdx fun i place =>
    ⟨i + 1, files.length, files.getD place []⟩

/-- The files whose jobs broke off, in the order of the reports. -/
def lostFiles (schedule : Schedule) (files : List Text) (results : List FileResult) : List Text :=
  (schedule.order files.length).filterMap fun place =>
    match results[place]? with
    | some (.error _) => files[place]?
    | _ => none

/-- The findings of a file; none if its job broke off. -/
def found (result : FileResult) : List Finding := result.toOption.getD []

/-- The findings in some files, done by a pool. -/
def inspectFiles (schedule : Schedule) (root commit : Text) (settings : Settings) (clock : Int)
    (files : List Text) (w : World) : List Finding × World :=
  let (results, w) :=
    Pool.run schedule (files.map fun file => fileWork root file commit settings clock) w
  (results.flatMap found, (lostFiles schedule files results).foldl (fun w f => w.note (.fileLost f)) w)

/-- The fan-in of files as the scan sees it. -/
def countImports (root : Text) (files : List Text) (w : World) : FanIn × World :=
  let (fanIn, events) := Imports.graph w.files root files
  (fanIn, { w with events := w.events ++ events })

/-- Scan a workspace. -/
def scan [Glob.Dialect] (schedule : Schedule) (root : Text) (settings : Settings) :
    Action (DebtMap × List Progress) := do
  let commit ← currentCommit root
  let clock := (← get).clock
  let files ← Action.orFault .discovery (selectFiles root settings)
  modify (World.note (.scanStarted files.length commit))
  let inFiles ← Action.always (inspectFiles schedule root commit settings clock files)
  let inDependencies ← Action.orFault .audit (Audit.scan root settings.auditCommand Audit.limits)
  let fanIn ← Action.always (countImports root files)
  let stale ← Action.orFault .age
    (Staleness.scan root settings.staleDays settings.staleImports fanIn clock files)
  let findings := inFiles ++ inDependencies ++ stale
  return ({
    findings
    scannedAt := (← get).clock
    commit
    stats := Stats.ofFindings findings fanIn }, progress schedule files)

/-- Scan one file only, for markers and functions. -/
def scanFile (root file : Text) (settings : Settings) : Action (List Finding) := do
  let commit ← currentCommit root
  let clock := (← get).clock
  Action.orFault .blame (fileWork root file commit settings clock).run

/-- Scan a workspace on behalf of someone who is told nothing, with the history known so far. -/
def scanUntold [Glob.Dialect] (schedule : Schedule) (root : Text) (settings : Settings) :
    Action DebtMap := fun w =>
  let (result, after) := scan schedule root settings { w with noticed := false }
  (result.map (·.1), { after with noticed := w.noticed, notices := w.notices })

/-- Forget the blames that are remembered. -/
def clear : Action Unit := modify History.clear

end DebtSurvey.Scan
