import DebtSurvey.CommandLine.Arguments
import DebtSurvey.CommandLine.Console
import DebtSurvey.Report.File
import DebtSurvey.Settings.Loader

/-!
# The program

A request names a path in a workspace. The root of the repository around it is scanned with the
settings found there. A path that leads to no directory is an error of the user; all other faults are
faults of the program, and nothing of its output is kept then.
-/

namespace DebtSurvey.CommandLine

/-- How the program ends. -/
structure Outcome where
  /-- The exit code. -/
  code : Nat
  /-- What it has written. -/
  output : Text := []
  /-- What it has written beside that: notices, progress, errors. -/
  messages : Text := []
  /-- The paths of the reports it has written. -/
  reports : List Text := []
deriving DecidableEq, Repr

/-- Why the program breaks off. -/
inductive ProgramFault where
  /-- An operand is missing that a separator took the place of. -/
  | noOperand
  /-- The settings cannot be loaded. -/
  | settings (cause : Settings.LoadFault)
  /-- The scan broke off. -/
  | scan (cause : Scan.Fault)
  /-- A report cannot be written. -/
  | report (cause : Report.WriteFault)
deriving DecidableEq, Repr

/-- A run of the program: it changes the world, and ends or breaks off. -/
abbrev Run (α : Type) := ExceptT ProgramFault (StateM World) α

/-- The exit code of an error of the user. -/
def userError : Nat := 2

/-- The root of the workspace around a path, and its settings. -/
def openWorkspace (path : Text) : Run (Text × Settings) := do
  let w ← get
  let root := Workspace.repositoryRoot w.files.hasPath path
  let (result, events) := Settings.load Yaml.readBytes w.files root
  set { w with events := w.events ++ events }
  match result with
  | .ok preferences => return (root, preferences.settings)
  | .error e => throw (.settings e)

/-- What the user is told of a workspace that is gone. -/
def missingWorkspace (path : Text) : Outcome :=
  { code := userError, messages := Console.fault (Scan.noWorkspaceMessage path) }

/-- Do a part of a scan. A workspace that is not there is an error of the user. -/
def attempt {α : Type} (action : Scan.Action α) (next : α → Text → Run Outcome) : Run Outcome := do
  let told := (← get).notices.length
  let (result, w) := action (← get)
  set w
  let notices := (w.notices.drop told).flatMap Console.notice
  match result with
  | .ok a => next a notices
  | .error (.noWorkspace root) =>
    let outcome := missingWorkspace root
    return { outcome with messages := notices ++ outcome.messages }
  | .error e => throw (.scan e)

/-- Write a report if it is asked for; its path then. -/
def report (isAsked : Bool) (write : Node → Except Report.WriteFault (Text × Node)) :
    Run (List Text) := do
  if isAsked then
    let w ← get
    match write w.files with
    | .ok (path, files) =>
      set { w with files }
      return [path]
    | .error e => throw (.report e)
  else return []

/-- Scan a workspace. -/
def runScan (schedule : Schedule) (path : Text) (switches : List Switch) : Run Outcome := do
  let (root, settings) ← openWorkspace path
  attempt (Scan.scan schedule root settings) fun (map, progress) notices => do
    let lines := progress.flatMap fun p => Console.progress p.processed p.total p.file
    let document ← report (switches.contains .json) (Report.writeDocument · root map)
    let page ← report (switches.contains .markdown) (Report.writePage · root map)
    return {
      code := 0
      output := Console.summary map ++ (document ++ page).flatMap Console.written
      messages := notices ++ if switches.contains .quiet then [] else lines
      reports := document ++ page }

/-- Scan one file of a workspace. -/
def runScanFile (path : Text) (file : Operand) : Run Outcome := do
  let (root, settings) ← openWorkspace path
  match file with
  | none => throw .noOperand
  | some file =>
    let relative := Path.relative root (Path.append root file)
    attempt (Scan.scanFile root relative settings) fun found notices =>
      return { code := 0, output := found.flatMap Console.findingLine, messages := notices }

/-- Do something with a path that must lead to a directory. -/
def withDirectory (path : Operand) (run : Text → Run Outcome) : Run Outcome := do
  match path with
  | none => throw .noOperand
  | some path =>
    if (← get).files.hasDirectory path then run path else return missingWorkspace path

/-- Do what is requested. -/
def perform (schedule : Schedule) : Request → Run Outcome
  | .scan path switches => withDirectory path fun path => runScan schedule path switches
  | .scanFile path file => withDirectory path fun path => runScanFile path file

/-- The exit code where nothing is done. -/
def Refusal.code : Refusal → Nat
  | .help => 0
  | .misuse => userError

end DebtSurvey.CommandLine
