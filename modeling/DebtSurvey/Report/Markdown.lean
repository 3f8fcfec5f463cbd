import DebtSurvey.Calendar.Moment
import DebtSurvey.Number.Decimal
import DebtSurvey.Stats

/-!
# The Markdown report

A debt map as a page with tables of its counts, its hottest files, and a list of its findings.
-/

namespace DebtSurvey.Report

/-- Why a moment has no date on the page. -/
inductive ClockError where
  /-- The calendar ends before it, or starts after it. -/
  | outsideCalendar
  /-- It is too far away for the clock of the platform. -/
  | outsideClock
  /-- It is too large a number. -/
  | tooLarge
deriving DecidableEq, Repr

/-- Days from the first day of year 1 to a number of seconds after the epoch. -/
def dayOf (seconds : Int) : Int := seconds.fdiv 86400 + Calendar.epochDay

/-- The first and last second that the clock of the platform can name. -/
def clockRange : Int × Int := (-67768040609740800, 67768036191676799)

/-- Seconds are held in 64-bit words: from minus this limit to below it. -/
def secondsLimit : Int := 9223372036854775808

/-- The date and time of a moment in milliseconds. The day before it must be in the calendar too. -/
def stamp (millis : Int) : Except ClockError Text :=
  match (Binary64.ofRat (mkRat millis 1000)).toRat? with
  | none => .error .tooLarge
  | some exact =>
    let seconds := exact.floor
    if seconds < -secondsLimit ∨ secondsLimit ≤ seconds then .error .tooLarge
    else if seconds < clockRange.1 ∨ clockRange.2 < seconds then .error .outsideClock
    -- The clock is also asked about the day before, to tell whether an hour is repeated.
    else if dayOf (seconds - 86400) < 0 then .error .outsideCalendar
    else
      let date := Calendar.Date.ofOrdinal (dayOf seconds).toNat
      if Calendar.maxYear < date.year then .error .outsideCalendar
      else
        .ok (Text.ofNat date.year ++ '-' :: Calendar.Moment.twoDigits date.month ++
          '-' :: Calendar.Moment.twoDigits date.day ++
          ' ' :: Calendar.Moment.clockText (seconds.fmod 86400).toNat 0)

/-- A line of the page. -/
def line (parts : List Text) : Text := parts.flatten ++ ['\n']

/-- A row of a table. -/
def row (cells : List Text) : Text := line ["| ", Text.join " | " cells, " |"]

/-- A text set as code. -/
def code (t : Text) : Text := '\x60' :: t ++ ['\x60']

/-- The table of counts under a title. -/
def countTable (title rule : Text) (counts : List (Text × Nat)) : Text :=
  row [title, "Count"] ++ line [rule] ++
    counts.flatMap fun (name, n) => row [name, Text.ofNat n]

/-- The table of the hottest files. -/
def hotTable (files : List HotFile) : Text :=
  if files.isEmpty then line ["No debt found."]
  else
    row ["File", "Score", "Imported by", "Items"] ++
      line ["|------|------:|------------:|------:|"] ++
      files.flatMap fun h =>
        row [code h.file, Text.ofNat h.score, Text.ofInt h.importCount,
          Text.ofNat h.findings.length]

/-- Where a finding is: its file and, unless it is zero, its line. -/
def place (f : Finding) : Text :=
  code (f.file ++ match f.line with
    | some n => if n = 0 then [] else ':' :: Text.ofInt n
    | none => [])

/-- Who wrote the line of a finding and how long ago. -/
def origin (f : Finding) : Text :=
  match f.author with
  | none => []
  | some author =>
    if author.isEmpty then []
    else " (" ++ author ++ ", " ++ (f.ageInDays.map Text.ofInt).getD [] ++ "d)"

/-- The line of a finding. -/
def item (f : Finding) : Text :=
  line ["- **", f.severity.name, "** ", f.kind.name, [' '], place f, [' '], f.message, origin f]

/-- The list of findings. -/
def items (findings : List Finding) : Text := findings.flatMap item

/-- The page up to and with the heading of the list of findings. -/
def front (stamp : Text) (m : DebtMap) : Text :=
  line ["# Debt Radar Report"] ++ line [] ++
    line ["- Scanned at: ", stamp] ++
    line ["- Commit: ", if m.commit.isEmpty then "(not a git repository)" else m.commit] ++
    line ["- Total debt items: ", Text.ofNat m.stats.total] ++ line [] ++
    line ["## By kind"] ++ line [] ++
    countTable "Kind" "|------|------:|" (m.stats.byKind.map fun (k, n) => (k.name, n)) ++ line [] ++
    line ["## By severity"] ++ line [] ++
    countTable "Severity" "|----------|------:|"
      (m.stats.bySeverity.map fun (s, n) => (s.name, n)) ++ line [] ++
    line ["## Hot files"] ++ line [] ++ hotTable m.stats.hotFiles ++ line [] ++
    line ["## Items"] ++ line []

/-- The text of the Markdown report. -/
def pageText (m : DebtMap) : Except ClockError Text := do
  return front (← stamp m.scannedAt) m ++ items m.findings

end DebtSurvey.Report
