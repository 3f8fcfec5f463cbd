import DebtSurvey.Calendar.Reader
import DebtSurvey.Job
import DebtSurvey.World

/-!
# The history of a workspace

History is asked for by external commands. Whether there is a history at all is asked once and
remembered. The blame of a file at a commit is remembered from its first successful reading until
the memory is cleared, so asking again runs no command; failures are not remembered.
-/

namespace DebtSurvey.History

/-- How many seconds a command may take. -/
def patience : Number := .int 30

/-- The arguments that ask whether there is a history. -/
def probe : List Text := ["rev-parse", "--git-dir"]

/-- The arguments that ask for the current commit. -/
def currentArguments : List Text := ["rev-parse", "HEAD"]

/-- The arguments that ask for the blame of a file. -/
def blameArguments (file : Text) : List Text := ["blame", "--porcelain", "--", file]

/-- The arguments that ask for the last commit of a file and its date. -/
def lastArguments (file : Text) : List Text := ["log", "-1", "--format=%H%x09%cI", "--", file]

/-- Ask the version control program. -/
def ask (arguments : List Text) (w : World) : Except CommandError Text × World :=
  w.run "git" arguments patience

/-- Whether the workspace has a history; asked once. -/
def isRepository (root : Text) (w : World) : Bool × World :=
  match w.memory.repository with
  | some known => (known, w)
  | none =>
    match ask probe w with
    | (.ok _, w) => (true, { w with memory := { w.memory with repository := some true } })
    | (.error cause, w) =>
      (false, { w.note (.noRepository root cause) with
        memory := { w.memory with repository := some false } })

/-- The current commit; empty where it is not known. -/
def currentCommit (root : Text) (w : World) : Text × World :=
  match isRepository root w with
  | (false, w) => ([], w)
  | (true, w) =>
    match ask currentArguments w with
    | (.ok output, w) => (Text.trim output, w)
    | (.error cause, w) => ([], w.note (.noCurrentCommit cause))

/-- The remembered blame of a file at a commit. -/
def remembered? (file commit : Text) (w : World) : Option (List BlameRow) :=
  (w.memory.blames.find? (·.1 = (file, commit))).map (·.2)

/-- Remember the blame of a file at a commit, unless it is remembered already; what is remembered
then is the answer. -/
def remember (file commit : Text) (rows : List BlameRow) (w : World) : List BlameRow × World :=
  match remembered? file commit w with
  | some rows => (rows, w)
  | none =>
    (rows, { w with
      memory := { w.memory with blames := w.memory.blames ++ [((file, commit), rows)] } })

/-- Ask for the blame of a file. A failure is noted, and there are no rows then. -/
def askBlame (file : Text) (w : World) : Except Porcelain.Error (Option (List BlameRow)) × World :=
  match ask (blameArguments file) w with
  | (.error cause, w) => (.ok none, w.note (.noBlame file cause))
  | (.ok output, w) =>
    match Porcelain.parse output with
    | .ok rows => (.ok (some rows), w)
    | .error e => (.error e, w)

/-- The blame of a file at a commit, as a job: looking it up, asking whether there is a history,
asking for it, and remembering it are separate steps. -/
def blame (root file commit : Text) : Job World (Except Porcelain.Error (List BlameRow)) :=
  (Job.single fun w => (remembered? file commit w, w)).andThen fun known =>
    match known with
    | some rows => .done (.ok rows)
    | none =>
      (Job.single (isRepository root)).andThen fun isRepository =>
        if isRepository then
          (Job.single (askBlame file)).andThen fun answer =>
            match answer with
            | .error e => .done (.error e)
            | .ok none => .done (.ok [])
            | .ok (some rows) =>
              (Job.single (remember file commit rows)).andThen fun rows => .done (.ok rows)
        else .done (.ok [])

/-- The last commit of a file and its date, where both are known. -/
def lastModified (root file : Text) (w : World) : Option (Text × Calendar.Moment) × World :=
  match isRepository root w with
  | (false, w) => (none, w)
  | (true, w) =>
    match ask (lastArguments file) w with
    | (.error cause, w) => (none, w.note (.noLastCommit file cause))
    | (.ok output, w) =>
      let line := Text.trim output
      if line.isEmpty then (none, w)
      else
        let (commit, date) := Text.cut '\t' line
        match Calendar.Moment.parse? (Text.trim date) with
        | some moment => (some (commit, moment), w)
        | none => (none, w.note (.badCommitDate date file))

/-- Forget all blame. Whether there is a history stays known. -/
def clear (w : World) : World := { w with memory := { w.memory with blames := [] } }

/-- How many blames are remembered. -/
def size (w : World) : Nat := w.memory.blames.length

end DebtSurvey.History
