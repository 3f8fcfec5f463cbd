import DebtSurvey.Text.Basic

/-!
# Paths

A path is a text with slashes. Normalising one removes empty and `.` segments and lets `..` take
back the segment before it; two slashes at the very start are kept, as they may have a meaning of
their own.
-/

namespace DebtSurvey.Path

/-- The segments of a path, empty ones included. -/
def segments (path : Text) : List Text := Text.splitOn '/' path

/-- A segment that names nothing. -/
def isIdle (segment : Text) : Bool := segment == [] || segment == ['.']

/-- A segment that leads to the directory above. -/
def isUp (segment : Text) : Bool := segment == ['.', '.']

/-- Whether a path starts at the top of the file system. -/
def isAbsolute (path : Text) : Bool := path.head? == some '/'

/-- Append a path to a directory; an absolute path stands for itself. -/
def append (directory path : Text) : Text :=
  if isAbsolute path ∨ directory = [] then path
  else if directory.getLast? = some '/' then directory ++ path
  else directory ++ '/' :: path

/-- The slashes that a normalised absolute path starts with. -/
def lead (path : Text) : Text :=
  match path with
  | '/' :: '/' :: '/' :: _ => ['/']
  | '/' :: '/' :: _ => ['/', '/']
  | _ => ['/']

/-- The names that an absolute path leads through, once idle segments are dropped and `..` has taken
back the name before it. -/
def names (path : Text) : List Text :=
  ((segments path).foldl
    (fun above segment =>
      if isIdle segment then above else if isUp segment then above.tail else segment :: above)
    []).reverse

/-- The absolute path through some names. -/
def ofNames (start : Text) (names : List Text) : Text := start ++ Text.join ['/'] names

/-- The normal form of an absolute path. -/
def normalise (path : Text) : Text := ofNames (lead path) (names path)

/-- Drop what two lists have in common at the front. -/
def dropCommon : List Text → List Text → List Text × List Text
  | a :: s, b :: t => if a = b then dropCommon s t else (a :: s, b :: t)
  | s, t => (s, t)

/-- The way from a directory to a target, both absolute. -/
def relative (directory target : Text) : Text :=
  let (up, down) := dropCommon (names directory) (names target)
  match up.map (fun _ => ['.', '.']) ++ down with
  | [] => ['.']
  | way => Text.join ['/'] way

/-- The last segment of a path. -/
def baseName (path : Text) : Text := (segments path).getLast?.getD []

end DebtSurvey.Path
