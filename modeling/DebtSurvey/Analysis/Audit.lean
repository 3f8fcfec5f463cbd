import DebtSurvey.Finding.Basic
import DebtSurvey.Finding.Identity
import DebtSurvey.Json.Display
import DebtSurvey.Json.Reader
import DebtSurvey.Text.Case
import DebtSurvey.World

/-!
# Findings of dependency audits

An audit is a JSON object with an object of vulnerabilities by package. Each package is one finding,
titled by the first advisory that has a title; advisories may be mixed with bare package names.
-/

namespace DebtSurvey.Audit

/-- Why an audit cannot be used. -/
inductive Error where
  /-- The audit is no object. -/
  | notAnObject
  /-- The vulnerabilities are no object. -/
  | vulnerabilitiesNotObject
  /-- The advisories of a package are neither a list nor absent. -/
  | notAList
  /-- A package or title holds a lone surrogate. -/
  | notEncodable
deriving DecidableEq, Repr

/-- What is said about vulnerabilities of the wrong form. -/
def vulnerabilitiesMessage : Text := "'vulnerabilities' is not an object"

/-- The file that declares dependencies. -/
def manifest : Text := "package.json"

/-- What an audit may take of time and of stack. -/
structure Limits where
  /-- How many seconds the command may take. -/
  seconds : Number := .int 10
  /-- How many arrays and objects may stand inside each other in its output. -/
  nesting : Nat := 990

/-- The limits of an audit that is part of a scan. -/
def limits : Limits := {}

/-- The title of a package without one. -/
def defaultTitle : DocText := "Vulnerability detected"

/-- The severities that audits know. -/
def severityNames : List (Text × Severity) :=
  [("critical", .critical), ("high", .high), ("moderate", .medium), ("low", .low)]

/-- The severity of a package; anything unknown is low. Only strings name a severity, whatever the
case of their letters; no letter outside ASCII is a capital of one that occurs in the names. -/
def severity (value : Json) : Severity :=
  match value with
  | .text t =>
    match t.toText? with
    | some name =>
      ((severityNames.find? (·.1 = Text.lowerAscii name)).map (·.2)).getD .low
    | none => .low
  | _ => .low

/-- The title of an advisory, if it has one. -/
def advisoryTitle? (advisory : Json) : Option DocText :=
  match advisory with
  | .object fields =>
    match Json.field? fields "title" with
    | some title => if title.isTruthy then some title.display else none
    | none => none
  | _ => none

/-- The advisories among the fields of a package. Strings and objects may stand in their place, but
hold no advisory. -/
def advisories (fields : List (DocText × Json)) : Except Error (List Json) :=
  match Json.field? fields "via" with
  | none => .ok []
  | some via =>
    if via.isTruthy then
      match via with
      | .array items => .ok items
      | .text _ => .ok []
      | .object _ => .ok []
      | _ => .error .notAList
    else .ok []

/-- The finding of a package. -/
def finding (package : DocText) (vulnerability : Json) : Except Error Finding := do
  let fields := match vulnerability with
    | .object fields => fields
    | _ => []
  let title := ((← advisories fields).findSome? advisoryTitle?).getD defaultTitle
  match Identity.ofDocument? ["dep", package, title],
      (package ++ (": " : DocText) ++ title).toText? with
  | some id, some message =>
    return {
      id
      kind := .dep
      severity := severity ((Json.field? fields "severity").getD .null)
      file := manifest
      message }
  | _, _ => .error .notEncodable

/-- The findings of an audit, in the order of its packages. -/
def findings (payload : Json) : Except Error (List Finding) :=
  match payload with
  | .object fields =>
    match Json.field? fields "vulnerabilities" with
    | none => .ok []
    | some (.object packages) => packages.mapM fun (package, v) => finding package v
    | some other => if other.isTruthy then .error .vulnerabilitiesNotObject else .ok []
  | _ => .error .notAnObject

/-- Why an audit broke off instead of being left out. -/
inductive Fault where
  /-- The advisories of a package are neither a list nor absent. -/
  | notAList
  /-- The output is nested too deep to be read. -/
  | tooDeep
  /-- The audit command is empty and did not even exit. -/
  | noProgram
deriving DecidableEq, Repr

/-- The findings in the output of an audit command; nothing where the output is no audit. -/
def outcome (nesting : Nat) (output : Text) : Except Fault (Option (List Finding)) :=
  match Json.read nesting output with
  | .error .tooDeep => .error .tooDeep
  | .error .malformed => .ok none
  | .ok payload =>
    match findings payload with
    | .ok found => .ok (some found)
    | .error .notAList => .error .notAList
    | .error _ => .ok none

/-- Audit the dependencies of a workspace that declares any. A command that fails, and output that
is no audit, are noted, and there are no findings then. -/
def scan (directory : Text) (command : List Text) (limits : Limits) (w : World) :
    Except Fault (List Finding) × World :=
  if w.files.hasPath (Path.append directory manifest) then
    let (result, host) := w.host.runLine command limits.seconds
    let w := { w with host }
    match result with
    | .error .noProgram => (.error .noProgram, w)
    | .error (.command cause) => (.ok [], w.note (.auditFailed cause))
    | .ok output =>
      match outcome limits.nesting output with
      | .ok (some found) => (.ok found, w)
      | .error fault => (.error fault, w)
      | .ok none => (.ok [], w.note .auditUnusable)
  else (.ok [], w)

end DebtSurvey.Audit
