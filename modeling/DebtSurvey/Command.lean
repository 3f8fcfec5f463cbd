import DebtSurvey.Number.Decimal
import DebtSurvey.Text.Blank

/-!
# External commands

What the outside world answers to commands is a script: for each command line the answers to come.
Answers are given one after the other, the last one again and again. A command that is not in the
script fails. Running a command turns its answer into its output or into an error with a cause.
-/

namespace DebtSurvey

/-- How a command ends. -/
inductive Answer where
  /-- It exits with a code and the texts it has written. -/
  | exited (code : Int) (output errors : Text)
  /-- It does not end in time. -/
  | timedOut
  /-- It cannot be started, for a reason. -/
  | notStarted (reason : Text)
deriving DecidableEq, Repr, Inhabited

/-- Why a command gave no output. -/
inductive CommandError where
  /-- It ran longer than allowed. -/
  | timedOut (program : Text) (seconds : Number)
  /-- It could not be started. -/
  | notStarted (program reason : Text)
  /-- It exited with a code other than zero. -/
  | failed (command : Text) (code : Int) (errors : Text)
deriving DecidableEq, Repr

/-- What is said about a failed command. -/
def CommandError.message : CommandError → Text
  | .timedOut program seconds => program ++ " timed out after " ++ seconds.toText ++ ['s']
  | .notStarted program reason => program ++ " could not be started: " ++ reason
  | .failed command code errors =>
    command ++ " exited with " ++ Text.ofInt code ++ ": " ++ Text.trim errors

/-- Why running a command line did not succeed. -/
inductive RunError where
  /-- The command failed. -/
  | command (cause : CommandError)
  /-- The command line names no program to report about. -/
  | noProgram
deriving DecidableEq, Repr

/-- The answers to come, by command line with its words joined by blanks. -/
abbrev Script := List (Text × List Answer)

namespace Script

/-- The answer of a command that the script does not know. -/
def unknown : Answer := .exited 128 [] "fatal: unscripted"

/-- Use up an answer unless it is the last one. -/
def advance : List Answer → List Answer
  | _ :: next :: rest => next :: rest
  | answers => answers

/-- The next answer to a command line, and the script after it. -/
def ask (key : Text) : Script → Answer × Script
  | [] => (unknown, [])
  | (k, answers) :: rest =>
    if k = key then (answers.head?.getD unknown, (k, advance answers) :: rest)
    else
      let (answer, rest) := ask key rest
      (answer, (k, answers) :: rest)

/-- Give a command line new answers. -/
def set (key : Text) (answers : List Answer) : Script → Script
  | [] => [(key, answers)]
  | (k, old) :: rest => if k = key then (k, answers) :: rest else (k, old) :: set key answers rest

end Script

/-- The outside world: its script, and the command lines run so far. -/
structure Host where
  /-- The answers to come. -/
  script : Script := []
  /-- The command lines run, in order. -/
  calls : List Text := []
deriving Repr, Inhabited

namespace Host

/-- The key of a command line. -/
def key (command : List Text) : Text := Text.join [' '] command

/-- What an answer to a command line means to the one who ran its program. -/
def interpret (program line : Text) (seconds : Number) : Answer → Except CommandError Text
  | .exited code output errors => if code = 0 then .ok output else .error (.failed line code errors)
  | .timedOut => .error (.timedOut program seconds)
  | .notStarted reason => .error (.notStarted program reason)

/-- The next answer to a command line. -/
def ask (line : Text) (host : Host) : Answer × Host :=
  let (answer, script) := host.script.ask line
  (answer, { script, calls := host.calls ++ [line] })

/-- Run a program for at most some seconds. -/
def run (program : Text) (arguments : List Text) (seconds : Number) (host : Host) :
    Except CommandError Text × Host :=
  let line := key (program :: arguments)
  let (answer, host) := host.ask line
  (interpret program line seconds answer, host)

/-- Run a command line that may be empty. An empty one can fail, but there is no program to name when
it does not even exit. -/
def runLine (command : List Text) (seconds : Number) (host : Host) : Except RunError Text × Host :=
  match command with
  | program :: arguments =>
    let (result, host) := host.run program arguments seconds
    (result.mapError .command, host)
  | [] =>
    let (answer, host) := host.ask []
    match answer with
    | .exited .. => ((interpret [] [] seconds answer).mapError .command, host)
    | _ => (.error .noProgram, host)

end Host

end DebtSurvey
