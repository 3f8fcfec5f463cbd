import DebtSurvey.Json.Writer
import DebtSurvey.Stats

/-!
# The JSON report

What a report says is made of texts, integers and lists: kinds and severities stand in it by their
names, which may be any texts. As a document it leaves out what a finding does not have; empty texts
and zeros are kept.
-/

namespace DebtSurvey.Report

/-- An object from names and values. -/
def fields (entries : List (Text × Json)) : Json :=
  .object (entries.map fun (name, value) => (DocText.ofText name, value))

/-- A field that is always there. -/
def required (name : Text) (value : Json) : List (Text × Json) := [(name, value)]

/-- A field that is left out when it has no value. -/
def optional {α : Type} (name : Text) (encode : α → Json) (value : Option α) : List (Text × Json) :=
  (value.map fun v => (name, encode v)).toList

/-! ### Findings -/

/-- What a report says about a finding. -/
structure Item where
  /-- A digest of what makes the finding the one it is. -/
  id : Text
  /-- The name of its kind. -/
  kind : Text
  /-- The name of its severity. -/
  severity : Text
  /-- The file it is in. -/
  file : Text
  /-- The line it is on. -/
  line : Option Int
  /-- What a reader is told about it. -/
  message : Text
  /-- Who wrote the line. -/
  author : Option Text
  /-- How many whole days ago the line or file was last changed. -/
  ageInDays : Option Int
  /-- The commit of that change. -/
  lastCommit : Option Text
deriving DecidableEq, Repr

/-- What a report says about a finding of a scan. -/
def Item.ofFinding (f : Finding) : Item where
  id := f.id
  kind := f.kind.name
  severity := f.severity.name
  file := f.file
  line := f.line
  message := f.message
  author := f.author
  ageInDays := f.ageInDays
  lastCommit := f.lastCommit

/-- A finding of a report as a document. -/
def Item.document (i : Item) : Json :=
  fields (List.flatten [
    required "id" (Json.ofText i.id),
    required "kind" (Json.ofText i.kind),
    required "severity" (Json.ofText i.severity),
    required "file" (Json.ofText i.file),
    optional "line" Json.ofInt i.line,
    required "message" (Json.ofText i.message),
    optional "author" Json.ofText i.author,
    optional "ageInDays" Json.ofInt i.ageInDays,
    optional "lastCommit" Json.ofText i.lastCommit])

/-- A finding as a document. -/
def finding (f : Finding) : Json := (Item.ofFinding f).document

/-! ### Statistics -/

/-- What a report says about a hot file. -/
structure HotSpot where
  /-- The file. -/
  file : Text
  /-- Its score. -/
  score : Int
  /-- How many files import it. -/
  importCount : Int
  /-- Its findings, in order. -/
  items : List Item
deriving DecidableEq, Repr

/-- What a report says about a hot file of a scan. -/
def HotSpot.ofHotFile (h : HotFile) : HotSpot where
  file := h.file
  score := h.score
  importCount := h.importCount
  items := h.findings.map Item.ofFinding

/-- A hot file of a report as a document. -/
def HotSpot.document (h : HotSpot) : Json :=
  fields [("file", Json.ofText h.file), ("score", Json.ofInt h.score),
    ("importCount", Json.ofInt h.importCount), ("debtItems", .array (h.items.map Item.document))]

/-- What a report says about all findings together. -/
structure Totals where
  /-- The number of findings. -/
  total : Int
  /-- Numbers of findings by the name of a kind. -/
  byKind : List (Text × Int)
  /-- Numbers of findings by the name of a severity. -/
  bySeverity : List (Text × Int)
  /-- The hottest files, in order. -/
  hotSpots : List HotSpot
deriving DecidableEq, Repr

/-- What a report says about the statistics of a scan. -/
def Totals.ofStats (s : Stats) : Totals where
  total := s.total
  byKind := s.byKind.map fun (k, n) => (k.name, (n : Int))
  bySeverity := s.bySeverity.map fun (v, n) => (v.name, (n : Int))
  hotSpots := s.hotFiles.map HotSpot.ofHotFile

/-- Numbers by name as a document. -/
def counts (entries : List (Text × Int)) : Json :=
  fields (entries.map fun (name, n) => (name, Json.ofInt n))

/-- The statistics of a report as a document. -/
def Totals.document (t : Totals) : Json :=
  fields [("totalDebt", Json.ofInt t.total), ("byKind", counts t.byKind),
    ("bySeverity", counts t.bySeverity), ("hotFiles", .array (t.hotSpots.map HotSpot.document))]

/-- Statistics as a document. -/
def stats (s : Stats) : Json := (Totals.ofStats s).document

/-! ### The whole report -/

/-- All that a report says. -/
structure Content where
  /-- The findings, in order. -/
  items : List Item
  /-- When the scan ended, in milliseconds since the epoch. -/
  scannedAt : Int
  /-- The commit that was scanned. -/
  commit : Text
  /-- What there is to say about all findings together. -/
  totals : Totals
deriving DecidableEq, Repr

/-- What a report says about the outcome of a scan. -/
def Content.ofDebtMap (m : DebtMap) : Content where
  items := m.findings.map Item.ofFinding
  scannedAt := m.scannedAt
  commit := m.commit
  totals := Totals.ofStats m.stats

/-- A report as a document. -/
def Content.document (c : Content) : Json :=
  fields [("items", .array (c.items.map Item.document)), ("scannedAt", Json.ofInt c.scannedAt),
    ("commitSha", Json.ofText c.commit), ("stats", c.totals.document)]

/-- The text of a report. -/
def Content.text (c : Content) : Text := Json.render Json.Layout.indented c.document

/-- A debt map as a document. -/
def debtMap (m : DebtMap) : Json := (Content.ofDebtMap m).document

/-- The text of the JSON report. -/
def documentText (m : DebtMap) : Text := (Content.ofDebtMap m).text

end DebtSurvey.Report
