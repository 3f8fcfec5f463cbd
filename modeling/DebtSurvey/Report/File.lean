import DebtSurvey.Report.Document
import DebtSurvey.Report.Markdown
import DebtSurvey.Text.Utf8
import DebtSurvey.Workspace.Tree

/-!
# Report files

Reports are written to files of fixed names in a directory. The file is emptied before its text is
known, so a page that cannot be made leaves an empty file.
-/

namespace DebtSurvey.Report

/-- The name of the JSON report. -/
def documentName : Text := "debt-report.json"

/-- The name of the Markdown report. -/
def pageName : Text := "DEBT_REPORT.md"

/-- Why a report is not written. -/
inductive WriteFault where
  /-- The file cannot be written. -/
  | path (cause : PathError)
  /-- The page has no date. -/
  | clock (cause : ClockError)
deriving DecidableEq, Repr

/-- Write a text to a file in a directory: the path of the file, and the files afterwards. -/
def writeTo (files : Node) (directory name text : Text) : Except WriteFault (Text × Node) :=
  let path := Path.append directory name
  match files.write path (Text.Utf8.encode text) with
  | .ok files => .ok (path, files)
  | .error e => .error (.path e)

/-- Write the JSON report into a directory. -/
def writeDocument (files : Node) (directory : Text) (m : DebtMap) :
    Except WriteFault (Text × Node) :=
  writeTo files directory documentName (documentText m)

/-- Write the Markdown report into a directory. -/
def writePage (files : Node) (directory : Text) (m : DebtMap) : Except WriteFault (Text × Node) := do
  let (_, files) ← writeTo files directory pageName []
  match pageText m with
  | .ok text => writeTo files directory pageName text
  | .error e => throw (.clock e)

end DebtSurvey.Report
