import DebtSurvey.Scan.Session
import DebtSurvey.Workspace.Path

/-!
# What the console shows

Progress takes one line that is written over and over; a summary follows a scan, and the findings of
a single file stand on one line each.
-/

namespace DebtSurvey.Console

/-- How many places the name of a file has. -/
def nameWidth : Nat := 60

/-- How far a scan has come, in whole percent. -/
def percent (current total : Int) : Int := if total = 0 then 100 else (current * 100).fdiv total

/-- The line that tells of progress; it ends only when all is done. -/
def progress (current total : Int) (file : Text) : Text :=
  "\r[" ++ Text.padLeft 3 ' ' (Text.ofInt (percent current total)) ++ "%] " ++
    Text.padRight nameWidth ((Path.baseName file).take nameWidth) ++
    if current = total then ['\n'] else []

/-- A line. -/
def line (parts : List Text) : Text := parts.flatten ++ ['\n']

/-- A count under its name. -/
def countLine (name : Text) (n : Nat) : Text := line ["  ", name, ": ", Text.ofNat n]

/-- What there is to say about a scan. -/
def summary (m : DebtMap) : Text :=
  line ["=== Debt Radar Scan Complete ==="] ++
    line ["Commit: ", if m.commit.isEmpty then "(none)" else m.commit] ++
    line ["Total debt items: ", Text.ofNat m.stats.total] ++
    line ["\nBy Kind:"] ++ m.stats.byKind.flatMap (fun (k, n) => countLine k.name n) ++
    line ["\nBy Severity:"] ++ m.stats.bySeverity.flatMap (fun (s, n) => countLine s.name n) ++
    line ["\nHot Files (top 10):"] ++
    m.stats.hotFiles.flatMap fun h =>
      line ["  ", h.file, " (score: ", Text.ofNat h.score, ", imported by ",
        Text.ofInt h.importCount, [')']]

/-- A finding on one line. -/
def findingLine (f : Finding) : Text :=
  line [f.file, [':'], (f.line.map Text.ofInt).getD "None", " [", f.severity.name, "] ", f.kind.name,
    ": ", f.message]

/-- Something the user is told. -/
def notice (t : Text) : Text := line ["[info] ", t]

/-- Something that went wrong. -/
def fault (t : Text) : Text := line ["[error] ", t]

/-- The report at a path has been written. -/
def written (path : Text) : Text := line ["Wrote ", path]

end DebtSurvey.Console
