import DebtSurvey.Text.Newline
import DebtSurvey.Text.Utf8
import DebtSurvey.Workspace.Tree

/-!
# Source files

A source file is read as UTF-8, with undecodable bytes dropped and every line end made a newline. A
file with a null character near its start is taken for binary and refused.
-/

namespace DebtSurvey

/-- Why a source file cannot be read. -/
inductive SourceError where
  /-- The path leads to no file. -/
  | path (cause : PathError)
  /-- The file is binary. -/
  | binary (path : Text)
deriving DecidableEq, Repr

namespace Source

/-- How many characters at the start of a text tell whether it is binary. -/
def probeLength : Nat := 2048

/-- Whether a text looks like text: no null character is near its start. -/
def isText (content : Text) : Bool := !(content.take probeLength).contains '\x00'

/-- The text of some bytes. -/
def ofBytes (bytes : List UInt8) : Text := Text.unifyNewlines (Text.Utf8.decodeLenient bytes)

/-- Read the source file at an absolute path. -/
def read (root : Node) (path : Text) : Except SourceError Text :=
  match root.read path with
  | .error e => .error (.path e)
  | .ok bytes => if isText (ofBytes bytes) then .ok (ofBytes bytes) else .error (.binary path)

/-- What is said about a binary file. -/
def binaryMessage (path : Text) : Text := path ++ " looks like a binary file"

end Source

end DebtSurvey
