import DebtSurvey.Base64
import DebtSurvey.Json.Basic
import DebtSurvey.Text.Utf8
import DebtSurvey.World

/-!
# Snapshots

A snapshot describes a world as a JSON object: the files of a workspace by their paths, what commands
answer by their command lines, and the clock. A file is its text, its bytes in base 64, or a
directory; an answer is the output of a command or says how the command failed.
-/

namespace DebtSurvey.Snapshot

/-- The clock of a world that does not say. -/
def defaultClock : Int := 1700000000000

/-- A text. -/
def text? : Json → Option Text
  | .text t => t.toText?
  | _ => none

/-- An integer. -/
def int? : Json → Option Int
  | .number (.int n) => some n
  | _ => none

/-- The field of a name in an object. -/
def field? (j : Json) (name : Text) : Option Json :=
  match j with
  | .object fields => Json.field? fields (DocText.ofText name)
  | _ => none

/-- The named values of an object; none where there is no object. -/
def members? {α : Type} (decode : Json → Option α) : Option Json → Option (List (Text × α))
  | none => some []
  | some (.object fields) =>
    fields.mapM fun (name, value) => do return (← name.toText?, ← decode value)
  | some _ => none

/-- A file or directory. -/
def node? (j : Json) : Option Node :=
  match j, field? j "b64", field? j "dir" with
  | .text t, _, _ => do return .file (Text.Utf8.encode (← t.toText?))
  | _, some encoded, _ => do return .file (← Base64.decode? (← text? encoded))
  | _, none, some (.bool true) => some (.dir [])
  | _, _, _ => none

/-- Put a file or directory at a path below a directory; one that is a directory already stays. -/
def place (directory path : Text) (node : Node) (files : Node) : Node :=
  let names := Path.names directory ++ Path.names ('/' :: path)
  match node with
  | .dir _ =>
    if files.hasDirectory (Path.ofNames ['/'] names) then files else Node.plant node names files
  | .file _ => Node.plant node names files

/-- An answer of a command. -/
def answer? (j : Json) : Option Answer :=
  match j, field? j "timeout", field? j "oserror" with
  | .text t, _, _ => do return .exited 0 (← t.toText?) []
  | .object _, some (.bool true), _ => some .timedOut
  | .object _, _, some reason => do return .notStarted (← text? reason)
  | .object _, _, none => do
    let part (name : Text) : Option Text :=
      match field? j name with
      | none => some []
      | some value => text? value
    let code ← match field? j "rc" with
      | none => some 0
      | some value => int? value
    return .exited code (← part "stdout") (← part "stderr")
  | _, _, _ => none

/-- The answers of a command: one for all times, or one after the other. -/
def answers? : Json → Option (List Answer)
  | .array items => items.mapM answer?
  | j => do return [← answer? j]

/-- The world of a snapshot, its workspace at a directory. -/
def world? (directory : Text) (j : Json) : Option World := do
  let nodes ← members? node? (field? j "files")
  let script ← members? answers? (field? j "commands")
  let clock ← match field? j "now" with
    | none => some defaultClock
    | some .null => some defaultClock
    | some value => int? value
  let files := nodes.foldl (fun files (path, node) => place directory path node files)
    (Node.plant (.dir []) (Path.names directory) (.dir []))
  return { files, host := { script }, clock }

end DebtSurvey.Snapshot
