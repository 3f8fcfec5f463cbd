import DebtSurvey.Analysis.Audit
import DebtSurvey.Proofs.NestingLimit
import DebtSurvey.Settings.Basic
import Mathlib.Data.List.Basic

/-!
# What comes of an audit

The output of an audit command is text of any kind, and JSON of any shape if it is JSON at all. One
that is nested deeper than a reader can follow breaks the session off. An audit lists its packages
when it is an object with an object of vulnerabilities. Each package then is one finding, but for
two kinds of packages that decide over the whole audit. One that has `true` or a number other than
zero where its advisories should be breaks the session off. One that is named or titled with a lone
surrogate has no identity, and the audit is left out.

## Main results

* `Audit.finding_eq`: what comes of one package.
* `Audit.mapM_finding`: what comes of a list of packages, decided by the first that is unusable.
* `Audit.outcome_of_read`: what comes of an output that can be read.
* `Audit.outcome_of_listed`: what comes of an output that lists packages.
* `Audit.fst_scan_brackets`: what comes of brackets that are nested too deep.
* `Audit.scan_defaultCommand`: what comes of an audit by the default command.
-/

namespace DebtSurvey

namespace DocText

/-- Two pieces spell a text when each of them does. -/
theorem toText?_append (s t : DocText) :
    toText? (s ++ t) = (toText? s).bind fun a => (toText? t).map (a ++ ·) := by
  induction s with
  | nil => cases h : toText? t <;> simp [toText?, h]
  | cons p s ih =>
    cases p with
    | scalar c =>
      show (toText? (s ++ t)).map (c :: ·) = ((toText? s).map (c :: ·)).bind _
      rw [ih]
      cases toText? s <;> cases toText? t <;> rfl
    | surrogate n => rfl

theorem eq_ofText_of_toText? {s : DocText} {t : Text} (h : toText? s = some t) : s = ofText t := by
  induction s generalizing t with
  | nil =>
    obtain rfl := Option.some.inj h
    rfl
  | cons p s ih =>
    cases p with
    | scalar c =>
      obtain ⟨rest, hrest, rfl⟩ := Option.map_eq_some_iff.mp h
      exact congrArg (CodePoint.scalar c :: ·) (ih hrest)
    | surrogate n => cases h

end DocText

namespace Audit

/-- The fields of what an audit says of a package, none where it is no object. -/
def fieldsOf : Json → List (DocText × Json)
  | .object fields => fields
  | _ => []

/-- What is said of a package breaks an audit off: where its advisories should be is `true` or a
number other than zero. -/
def breaksOff (vulnerability : Json) : Bool :=
  match Json.field? (fieldsOf vulnerability) "via" with
  | some (.bool b) => b
  | some (.number n) => (Json.number n).isTruthy
  | _ => false

/-- The title of a package: that of its first advisory that has one. -/
def titleOf (vulnerability : Json) : DocText :=
  let via := match Json.field? (fieldsOf vulnerability) "via" with
    | some (.array items) => items
    | _ => []
  (via.findSome? advisoryTitle?).getD defaultTitle

/-- The finding of a package with a title. -/
def titled (package title : DocText) (vulnerability : Json) : Except Error Finding :=
  match Identity.ofDocument? ["dep", package, title],
    (package ++ ((": " : DocText) ++ title)).toText? with
  | some id, some message => .ok {
      id, kind := .dep
      severity := severity ((Json.field? (fieldsOf vulnerability) "severity").getD .null)
      file := manifest, message }
  | _, _ => .error .notEncodable

/-- The finding that a package is, where its name and title are without lone surrogates. -/
def item? (package : DocText) (vulnerability : Json) : Option Finding := do
  let name ← package.toText?
  let title ← (titleOf vulnerability).toText?
  return {
    id := Identity.ofParts ["dep", name, title]
    kind := .dep
    severity := severity ((Json.field? (fieldsOf vulnerability) "severity").getD .null)
    file := manifest
    message := name ++ ": " ++ title }

/-- A package that breaks an audit off or has no finding. -/
def isUnusable (entry : DocText × Json) : Bool :=
  breaksOff entry.2 || (item? entry.1 entry.2).isNone

/-- The output of the audit command for a workspace: the workspace declares dependencies, and the
command succeeds. -/
def output? (directory : Text) (command : List Text) (seconds : Number) (w : World) : Option Text :=
  if w.files.hasPath (Path.append directory manifest) then
    (w.host.runLine command seconds).1.toOption
  else none

/-- The packages that an audit lists, with what it says of them: it is an object with an object of
vulnerabilities. -/
def listed? (payload : Json) : Option (List (DocText × Json)) :=
  match payload with
  | .object fields =>
    match Json.field? fields "vulnerabilities" with
    | some (.object packages) => some packages
    | _ => none
  | _ => none

variable {command : List Text}

/-- The identity of a package and its title is that of the texts they spell. -/
theorem ofDocument?_package (package title : DocText) :
    Identity.ofDocument? ["dep", package, title] =
      package.toText?.bind fun name =>
        title.toText?.map fun t => Identity.ofParts ["dep", name, t] := by
  have hkey : Identity.documentKey ["dep", package, title] =
      ("dep:" : DocText) ++ (package ++ ((":" : DocText) ++ title)) := rfl
  have hjoin (name t : Text) : Text.join [':'] ["dep", name, t] =
      "dep:".toList ++ (name ++ (":".toList ++ t)) := by
    show "dep".toList ++ [':'] ++ (name ++ [':'] ++ t) = _
    rw [List.append_assoc name]
    rfl
  rw [Identity.ofDocument?, hkey, DocText.toText?_append, DocText.toText?_append,
    DocText.toText?_append, DocText.toText?_ofText, DocText.toText?_ofText]
  cases package.toText? with
  | none => rfl
  | some name =>
    cases title.toText? with
    | none => rfl
    | some t => simp only [Option.bind_some, Option.map_some, Identity.ofParts, hjoin]

/-- The advisories of a package are those whose titles count, unless it breaks the audit off. -/
theorem advisories_fieldsOf (vulnerability : Json) :
    advisories (fieldsOf vulnerability) =
      if breaksOff vulnerability then .error .notAList
      else .ok (match Json.field? (fieldsOf vulnerability) "via" with
        | some (.array items) => items
        | _ => []) := by
  unfold advisories breaksOff
  cases Json.field? (fieldsOf vulnerability) "via" with
  | none => rfl
  | some via =>
    -- strings and objects may be walked through, but nothing in them has a title
    cases via with
    | null => rfl
    | bool b => cases b <;> rfl
    | number n => cases h : (Json.number n).isTruthy <;> simp [h]
    | text t => cases h : (Json.text t).isTruthy <;> simp
    | array items => cases items <;> rfl
    | object fields => cases h : (Json.object fields).isTruthy <;> simp

/-- The finding of a package by its title, where both are without lone surrogates. -/
theorem titled_eq (package : DocText) (vulnerability : Json) :
    titled package (titleOf vulnerability) vulnerability =
      (item? package vulnerability).elim (.error .notEncodable) .ok := by
  rw [titled, ofDocument?_package, DocText.toText?_append, DocText.toText?_append,
    DocText.toText?_ofText, item?]
  -- identity and message need the same two texts
  cases package.toText? with
  | none => rfl
  | some name =>
    cases (titleOf vulnerability).toText? with
    | none => rfl
    | some title =>
      simp only [Option.bind_some, Option.map_some, ← List.append_assoc]
      rfl

/-- A package is its finding, unless it breaks the audit off or has none. -/
theorem finding_eq (package : DocText) (vulnerability : Json) :
    finding package vulnerability =
      if breaksOff vulnerability then .error .notAList
      else (item? package vulnerability).elim (.error .notEncodable) .ok := by
  have hfields : finding package vulnerability =
      advisories (fieldsOf vulnerability) >>= fun via =>
        titled package ((via.findSome? advisoryTitle?).getD defaultTitle) vulnerability := by
    simp only [titled, ← List.append_assoc]
    cases vulnerability <;> rfl
  rw [hfields, advisories_fieldsOf, ← titled_eq]
  cases breaksOff vulnerability <;> rfl

/-- The packages of an audit are findings one by one and in order, unless one of them is unusable;
then the first such decides how the audit ends. -/
theorem mapM_finding (packages : List (DocText × Json)) :
    match packages.find? isUnusable with
    | none => ∃ found, (packages.mapM fun e => finding e.1 e.2) = .ok found ∧
        found.map some = packages.map fun e => item? e.1 e.2
    | some (_, v) => (packages.mapM fun e => finding e.1 e.2) =
        .error (if breaksOff v then .notAList else .notEncodable) := by
  induction packages with
  | nil => exact ⟨[], rfl, rfl⟩
  | cons entry packages ih =>
    obtain ⟨package, v⟩ := entry
    rw [List.find?_cons, List.mapM_cons, finding_eq]
    cases hbreaks : breaksOff v with
    | true =>
      have hunusable : isUnusable (package, v) = true := by simp [isUnusable, hbreaks]
      rw [hunusable]
      simp only [hbreaks, if_true]
      rfl
    | false =>
      cases hitem : item? package v with
      | none =>
        have hunusable : isUnusable (package, v) = true := by simp [isUnusable, hitem]
        rw [hunusable]
        simp only [hbreaks]
        rfl
      | some item =>
        -- a usable package leaves the decision to the packages after it
        have husable : isUnusable (package, v) = false := by simp [isUnusable, hbreaks, hitem]
        rw [husable]
        simp only
        split at ih
        · obtain ⟨found, hfound, hitems⟩ := ih
          refine ⟨item :: found, ?_, ?_⟩
          · rw [hfound]
            rfl
          · rw [List.map_cons, List.map_cons, hitems, hitem]
        · rw [ih]
          rfl

/-- A command line that names a program is reported about. -/
theorem runLine_ne_noProgram (hprogram : command ≠ []) (seconds : Number) (host : Host) :
    (host.runLine command seconds).1 ≠ .error .noProgram := by
  cases command with
  | nil => exact absurd rfl hprogram
  | cons program arguments =>
    show ((host.run program arguments seconds).1.mapError RunError.command) ≠ .error .noProgram
    cases (host.run program arguments seconds).1 with
    | error cause => intro h; cases h
    | ok output => intro h; cases h

/-- An output comes to findings if it can be read as an audit with these. -/
theorem outcome_eq_some_iff {nesting : Nat} {output : Text} {found : List Finding} :
    outcome nesting output = .ok (some found) ↔
      ∃ payload, Json.read nesting output = .ok payload ∧ findings payload = .ok found := by
  rw [outcome]
  rcases Json.read nesting output with (_ | _) | payload
  · simp
  · simp
  · rcases hfindings : findings payload with (_ | _ | _ | _) | others <;> simp [hfindings]

/-- An output that can be read comes to what its packages come to, if it lists any; it is left out
for want of its form, or of an identity. -/
theorem outcome_of_read {nesting : Nat} {output : Text} {payload : Json}
    (h : Json.read nesting output = .ok payload) :
    (outcome nesting output).map (·.getD []) =
      match listed? payload with
      | none => .ok []
      | some packages =>
        match packages.mapM fun e => finding e.1 e.2 with
        | .ok found => .ok found
        | .error .notAList => .error .notAList
        | .error _ => .ok [] := by
  rw [outcome, h]
  cases payload with
  | object fields =>
    simp only [findings, listed?]
    cases Json.field? fields "vulnerabilities" with
    | none => rfl
    | some value =>
      cases value with
      | object packages =>
        simp only
        cases packages.mapM fun e => finding e.1 e.2 with
        | ok found => rfl
        | error cause => cases cause <;> rfl
      | _ =>
        -- vulnerabilities of another form are an error where they count as present
        simp only
        generalize Json.isTruthy _ = present
        cases present <;> rfl
  | _ => rfl

/-- The packages that an output lists are findings one by one and in order, unless one of them is
unusable; then the first such decides what the output comes to. -/
theorem outcome_of_listed {nesting : Nat} {output : Text} {payload : Json}
    {packages : List (DocText × Json)} (hread : Json.read nesting output = .ok payload)
    (hlisted : listed? payload = some packages) :
    let result := (outcome nesting output).map (·.getD [])
    match packages.find? isUnusable with
    | none => ∃ found, result = .ok found ∧ found.map some = packages.map fun e => item? e.1 e.2
    | some (_, v) => result = if breaksOff v then .error .notAList else .ok [] := by
  have hresult := outcome_of_read hread
  have hmapM := mapM_finding packages
  simp only [hlisted] at hresult
  intro result
  replace hresult : result = _ := hresult
  cases hfind : packages.find? isUnusable with
  | none =>
    rw [hfind] at hmapM
    obtain ⟨found, hfound, hitems⟩ := hmapM
    rw [hfound] at hresult
    exact ⟨found, hresult, hitems⟩
  | some entry =>
    rw [hfind] at hmapM
    obtain ⟨package, v⟩ := entry
    replace hmapM : (packages.mapM fun e => finding e.1 e.2) =
      .error (if breaksOff v then .notAList else .notEncodable) := hmapM
    rw [hmapM] at hresult
    show result = if breaksOff v then .error .notAList else .ok []
    -- of the two errors only the first is passed on
    cases hbreaks : breaksOff v <;> rw [hbreaks] at hresult <;> exact hresult

/-- An audit comes to what its output comes to, if it has any. -/
theorem fst_scan (hprogram : command ≠ []) (directory : Text) (limits : Limits) (w : World) :
    (scan directory command limits w).1 =
      match output? directory command limits.seconds w with
      | none => .ok []
      | some output => (outcome limits.nesting output).map (·.getD []) := by
  have hnamed := runLine_ne_noProgram hprogram limits.seconds w.host
  unfold scan output?
  split
  · rcases hrun : w.host.runLine command limits.seconds with ⟨cause | output, host⟩
    · rw [hrun] at hnamed
      cases cause with
      | noProgram => exact absurd rfl hnamed
      | command cause => rfl
    · simp only [Except.toOption]
      rcases outcome limits.nesting output with fault | _ | found <;> rfl
  · rfl

/-- Whatever the limit is, opening brackets beyond it break the session off. -/
theorem fst_scan_brackets (hprogram : command ≠ []) {directory : Text} {limits : Limits} {w : World}
    {rest : Text} (h : output? directory command limits.seconds w =
      some (List.replicate (limits.nesting + 1) '[' ++ rest)) :
    (scan directory command limits w).1 = .error .tooDeep := by
  rw [fst_scan hprogram, h]
  simp only [outcome, Json.read_brackets]
  rfl

/-- What comes of an audit by the default command. Without an output there are no findings, nor are
there where it is no JSON or lists no packages; where it is nested too deep, the session breaks off.
The packages that are listed are one finding each, in order. Only where one of them is unusable it
is otherwise, and then by the first such: the session breaks off when that package has `true` or a
number other than zero for its advisories, and else, when it has no identity, there are no findings.
-/
theorem scan_defaultCommand (directory : Text) (limits : Limits) (w : World) :
    let result := (scan directory ({} : Settings).auditCommand limits w).1
    match output? directory ({} : Settings).auditCommand limits.seconds w with
    | none => result = .ok []
    | some output =>
      match Json.read limits.nesting output with
      | .error .tooDeep => result = .error .tooDeep
      | .error .malformed => result = .ok []
      | .ok payload =>
        match listed? payload with
        | none => result = .ok []
        | some packages =>
          match packages.find? isUnusable with
          | none =>
            ∃ found, result = .ok found ∧ found.map some = packages.map fun e => item? e.1 e.2
          | some (_, v) => result = if breaksOff v then .error .notAList else .ok [] := by
  have hprogram : ({} : Settings).auditCommand ≠ [] := by simp
  have hresult := fst_scan hprogram directory limits w
  intro result
  cases houtput : output? directory ({} : Settings).auditCommand limits.seconds w with
  | none =>
    rw [houtput] at hresult
    exact hresult
  | some output =>
    simp only [houtput] at hresult ⊢
    cases hread : Json.read limits.nesting output with
    | error fault =>
      rw [outcome, hread] at hresult
      cases fault <;> exact hresult
    | ok payload =>
      simp only
      cases hlisted : listed? payload with
      | none =>
        rw [outcome_of_read hread, hlisted] at hresult
        exact hresult
      | some packages =>
        have houtcome := outcome_of_listed hread hlisted
        rw [← hresult] at houtcome
        exact houtcome

end Audit

end DebtSurvey
