import DebtSurvey.Text.Digit
import DebtSurvey.Text.Newline

/-!
# Blame output

The porcelain format describes a file line by line. A header names the commit of a line, its line
number in that commit and its line number now; the author and time of a commit follow its first
header only; the content of a line follows a tab. Reading remembers the author and time of each
commit and gives one row for each header of a committed line, as soon as both are known.
-/

namespace DebtSurvey

/-- Who last changed a line, and when. -/
structure BlameRow where
  /-- The line, counted from one. -/
  line : Int
  /-- The author of the change. -/
  author : Text
  /-- The time of the change, in milliseconds since the epoch. -/
  timestamp : Int
  /-- The commit of the change. -/
  commit : Text
deriving DecidableEq, Repr, Inhabited

namespace Porcelain

/-- Why blame output cannot be read. -/
inductive Error where
  /-- A header has a line number with too many digits. -/
  | lineNumberTooLong
deriving DecidableEq, Repr

/-- A line of blame output, as far as it matters. -/
inductive Line where
  /-- A line of the file. -/
  | content
  /-- The header of a line: its commit and its line number now. -/
  | header (commit : Text) (line : Nat)
  /-- The author of the commit. -/
  | author (name : Text)
  /-- The time of the commit in seconds, where it can be read. -/
  | time (seconds : Option Int)
  /-- Anything else. -/
  | other
deriving DecidableEq, Repr

/-- The length of a commit hash. -/
def hashLength : Nat := 40

/-- The hash that stands for changes that are not committed. -/
def uncommitted : Text := List.replicate hashLength '0'

/-- Digits of a commit hash. -/
def isHashDigit (c : Char) : Bool := c.isDigit || ('a' ≤ c && c ≤ 'f')

/-- The digits of a number at the front, at least one, and the text after them. -/
def takeNumber? (t : Text) : Option (List Nat × Text) :=
  match (t.takeWhile Text.isDigit).filterMap Text.digitValue? with
  | [] => none
  | digits => some (digits, t.dropWhile Text.isDigit)

/-- A blank at the front. -/
def takeSpace? (t : Text) : Option Text :=
  match t with
  | ' ' :: rest => some rest
  | _ => none

/-- The commit and the digits of the line number of a header. What follows them does not matter. -/
def takeHeader? (t : Text) : Option (Text × List Nat) := do
  let commit := t.take hashLength
  if commit.length = hashLength ∧ commit.all isHashDigit then
    let (_, rest) ← takeNumber? (← takeSpace? (t.drop hashLength))
    let (digits, _) ← takeNumber? (← takeSpace? rest)
    return (commit, digits)
  else none

/-- What follows a label at the front of a line. -/
def afterLabel? (label t : Text) : Option Text :=
  if label.isPrefixOf t then some (t.drop label.length) else none

/-- What a line of blame output says. -/
def Line.parse (t : Text) : Except Error Line :=
  if t.head? = some '\t' then .ok .content
  else
    match takeHeader? t with
    | some (commit, digits) =>
      match Text.natOfDigits? digits with
      | some line => .ok (.header commit line)
      | none => .error .lineNumberTooLong
    | none =>
      match afterLabel? "author " t, afterLabel? "author-time " t with
      | some name, _ => .ok (.author name)
      | none, some seconds => .ok (.time (Text.toInt? seconds))
      | none, none => .ok .other

/-- What is known while reading blame output. -/
structure Reading where
  /-- The author and time of each commit met so far. -/
  commits : List (Text × Text × Int) := []
  /-- The commit and line number of the last header. -/
  header : Option (Text × Nat) := none
  /-- The author of its commit, once known. -/
  author : Option Text := none
  /-- The time of its commit in milliseconds, once known. -/
  timestamp : Option Int := none
  /-- Whether the last header has had its row. -/
  settled : Bool := false

namespace Reading

/-- What is remembered of a commit. -/
def known? (r : Reading) (commit : Text) : Option (Text × Int) :=
  (r.commits.find? (·.1 = commit)).map (·.2)

/-- Settle the last header once its author and time are known: the commit is remembered, and the
line gets a row unless its change is not committed. -/
def settle (r : Reading) : Reading × Option BlameRow :=
  match r.settled, r.header, r.author, r.timestamp with
  | false, some (commit, line), some author, some timestamp =>
    let commits :=
      if (r.known? commit).isSome then r.commits else r.commits ++ [(commit, author, timestamp)]
    ({ r with commits, settled := true },
      if commit = uncommitted then none else some ⟨line, author, timestamp, commit⟩)
  | _, _, _, _ => (r, none)

/-- Take in a line. -/
def step (r : Reading) : Line → Reading × Option BlameRow
  | .content => (r, none)
  | .other => (r, none)
  | .time none => (r, none)
  | .header commit line =>
    let known := r.known? commit
    settle { r with
      header := some (commit, line)
      author := known.map (·.1)
      timestamp := known.map (·.2)
      settled := false }
  | .author name => settle { r with author := some name }
  | .time (some seconds) => settle { r with timestamp := some (seconds * 1000) }

/-- The rows that come of lines. -/
def rows (r : Reading) : List Line → List BlameRow
  | [] => []
  | line :: rest =>
    let (r, row) := r.step line
    row.toList ++ rows r rest

end Reading

/-- The rows of blame output. -/
def parse (output : Text) : Except Error (List BlameRow) := do
  return Reading.rows {} (← (Text.breakLines output).mapM Line.parse)

/-- The row of a line; of several the last one counts. -/
def rowOf? (rows : List BlameRow) (line : Int) : Option BlameRow :=
  rows.reverse.find? (·.line = line)

end Porcelain

end DebtSurvey
