import DebtSurvey.Event
import DebtSurvey.History.Porcelain
import DebtSurvey.Workspace.Tree

/-!
# The world of a session

Everything a session reads and changes: the files, the commands, the clock, what is remembered of
the history, and what has been noted and told.
-/

namespace DebtSurvey

/-- What is remembered of the history of a workspace. -/
structure Memory where
  /-- Whether the workspace has a history, once asked. -/
  repository : Option Bool := none
  /-- The blame of files at commits, the oldest first. -/
  blames : List ((Text × Text) × List BlameRow) := []
deriving Repr, Inhabited

/-- The state of a session. -/
structure World where
  /-- The file system, from its top. -/
  files : Node
  /-- The outside world. -/
  host : Host := {}
  /-- The clock, in milliseconds since the epoch. -/
  clock : Int := 0
  /-- What is remembered of the history. -/
  memory : Memory := {}
  /-- What has been noted, in order. -/
  events : List Event := []
  /-- Whether the user has been told that there is no history. -/
  noticed : Bool := false
  /-- What the user has been told, in order. -/
  notices : List Text := []
deriving Inhabited

namespace World

/-- Note an event. -/
def note (event : Event) (w : World) : World := { w with events := w.events ++ [event] }

/-- Run a program for at most some seconds. -/
def run (program : Text) (arguments : List Text) (seconds : Number) (w : World) :
    Except CommandError Text × World :=
  let (result, host) := w.host.run program arguments seconds
  (result, { w with host })

end World

end DebtSurvey
