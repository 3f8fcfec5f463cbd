import DebtSurvey.Datum
import DebtSurvey.Settings.Basic
import DebtSurvey.Text.Digit

/-!
# Reading settings

Settings are read from a map. Every setting has a name of its own; names that are not known are
passed over, and a setting that is missing has its default. Numbers may be written in any form that
denotes one. The bands of complexity are a map of their own, in which unknown names are refused.
-/

namespace DebtSurvey.Settings

/-- Why a value cannot be used. -/
inductive Error where
  /-- The settings are no map. -/
  | notAMap
  /-- The named setting must be a map. -/
  | mapExpected (name type : Text)
  /-- The named setting must be a list. -/
  | listExpected (name type : Text)
  /-- The named setting must hold strings only, none of them empty. -/
  | stringsExpected (name : Text)
  /-- A value of this type denotes no number. -/
  | noNumber
  /-- A value denotes no number. -/
  | badNumber
  /-- A number is infinite. -/
  | infiniteNumber
  /-- A band of complexity has a name that is not known. -/
  | unknownBand
deriving DecidableEq, Repr

/-- What is said about a value that cannot be used, where there is something to say. -/
def Error.message? : Error → Option Text
  | .mapExpected name type => some ("'" ++ name ++ "' must be a mapping, got " ++ type)
  | .listExpected name type => some ("'" ++ name ++ "' must be a list, got " ++ type)
  | .stringsExpected name => some ("'" ++ name ++ "' must only contain non-empty strings")
  | _ => none

/-- The integer that a text denotes. -/
def integerOfText (t : Option Text) : Except Error Int :=
  match t.bind Text.toInt? with
  | some n => .ok n
  | none => .error .badNumber

/-- The text that bytes spell, if all are ASCII. -/
def asciiText? (bytes : List UInt8) : Option Text :=
  if bytes.all (· < 128) then some (bytes.map fun b => Char.ofNat b.toNat) else none

/-- The integer that a value denotes. -/
def integer : Datum → Except Error Int
  | .bool b => .ok (if b then 1 else 0)
  | .number n =>
    match n.toInt with
    | .ok n => .ok n
    | .error .overflow => .error .infiniteNumber
    | .error .notANumber => .error .badNumber
  | .text t => integerOfText t.toText?
  | .bytes b => integerOfText (asciiText? b)
  | _ => .error .noNumber

/-- The integer of a name, if the name occurs. -/
def integerOr (default : Int) (entries : List (Datum × Datum)) (name : Text) : Except Error Int :=
  match Datum.value? entries name with
  | some value => integer value
  | none => .ok default

/-- The string that a value is, unless it is empty. -/
def string? : Datum → Option DocText
  | .text [] => none
  | .text t => some t
  | _ => none

/-- The strings that a value holds. -/
def strings (name : Text) : Datum → Except Error (List DocText)
  | .list items =>
    match items.mapM string? with
    | some found => .ok found
    | none => .error (.stringsExpected name)
  | value => .error (.listExpected name value.typeName)

/-- The strings of a name, if the name occurs. -/
def stringsOr (default : List DocText) (entries : List (Datum × Datum)) (name : Text) :
    Except Error (List DocText) :=
  match Datum.value? entries name with
  | some value => strings name value
  | none => .ok default

/-- The names of the bands. -/
def bandNames : List Text := ["low", "medium", "high", "critical"]

/-- Whether a key is the name of a band. -/
def isBandName (key : Datum) : Bool :=
  bandNames.any fun name => key.sameKey (.text (DocText.ofText name))

/-- The name of the bands among settings. -/
def bandsName : Text := "complexity_thresholds"

/-- The entries that tell of bands. -/
def bandEntries (entries : List (Datum × Datum)) : Except Error (List (Datum × Datum)) :=
  match Datum.value? entries bandsName with
  | none => .ok []
  | some (.map inner) => .ok inner
  | some other => .error (.mapExpected bandsName other.typeName)

/-- The bands that entries tell of. Every value must be a number, and only then every name known. -/
def bandsOf (entries : List (Datum × Datum)) : Except Error (Code.Bands Int) := do
  let standard := Code.Bands.standard
  let low ← integerOr standard.low entries "low"
  let medium ← integerOr standard.medium entries "medium"
  let high ← integerOr standard.high entries "high"
  let critical ← integerOr standard.critical entries "critical"
  let others := entries.filter fun (key, _) => !isBandName key
  let _ ← others.mapM fun (_, value) => integer value
  if others.isEmpty then return { low, medium, high, critical } else throw .unknownBand

/-- The preferences that entries tell of. -/
def ofEntries (entries : List (Datum × Datum)) : Except Error Preferences := do
  let standard : Preferences := {}
  let bandEntries ← bandEntries entries
  let staleDays ← integerOr standard.staleDays entries "stale_days_threshold"
  let staleImports ← integerOr standard.staleImports entries "stale_import_threshold"
  let bands ← bandsOf bandEntries
  let markerWords ← stringsOr standard.markerWords entries "todo_patterns"
  let excludes ← stringsOr standard.excludes entries "exclude_globs"
  let fileLimit ← integerOr standard.fileLimit entries "max_files_to_scan"
  let auditCommand ← stringsOr standard.auditCommand entries "audit_command"
  return { staleDays, staleImports, bands, markerWords, excludes, fileLimit, auditCommand }

/-- The preferences that a value tells of. -/
def ofDatum : Datum → Except Error Preferences
  | .map entries => ofEntries entries
  | _ => .error .notAMap

end DebtSurvey.Settings
