import DebtSurvey.CommandLine.Program
import DebtSurvey.Json.Reader
import DebtSurvey.Snapshot

/-!
# The command

The command takes its request from its arguments and the world from a snapshot on standard input,
writes what the program writes, and leaves the reports in files.
-/

open DebtSurvey

/-- Write the bytes of a report to a file. -/
def writeReport (files : Node) (path : Text) : IO Unit :=
  match files.read path with
  | .ok bytes => IO.FS.writeBinFile (String.ofList path) (ByteArray.mk bytes.toArray)
  | .error _ => pure ()

/-- Do what the arguments request in a world. -/
def perform (request : CommandLine.Request) (world : World) : IO UInt32 := do
  let (result, after) := CommandLine.perform {} request world
  match result with
  | .error _ =>
    (← IO.getStderr).putStrLn "The program broke off."
    return 1
  | .ok outcome =>
    (← IO.getStdout).putStr (String.ofList outcome.output)
    (← IO.getStderr).putStr (String.ofList outcome.messages)
    outcome.reports.forM (writeReport after.files)
    return UInt32.ofNat outcome.code

/-- Read a snapshot and do what the arguments request. -/
def main (arguments : List String) : IO UInt32 := do
  match CommandLine.read (arguments.map (·.toList)) with
  | .error refusal => return UInt32.ofNat refusal.code
  | .ok request =>
    let input ← (← IO.getStdin).readToEnd
    match (Json.parse? input.toList).bind (Snapshot.world? ['/']) with
    | some world => perform request world
    | none =>
      (← IO.getStderr).putStrLn "The snapshot cannot be read."
      return 1
