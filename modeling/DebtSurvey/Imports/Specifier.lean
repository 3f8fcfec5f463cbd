import DebtSurvey.Text.Basic

/-!
# Import specifiers

A relative specifier names a file from the directory of the importing file. Resolving it walks the
segments: `..` leaves a directory, but never the workspace, and empty segments and `.` do nothing. A
target without one of the source extensions gets the first of them.
-/

namespace DebtSurvey.Imports

/-- The extensions of files that import and are imported. -/
def sourceExtensions : List Text := [".ts", ".tsx", ".js", ".jsx"]

/-- The extension that a target without one gets. -/
def defaultExtension : Text := ".ts"

/-- Whether a path ends in one of the source extensions. -/
def hasSourceExtension (path : Text) : Bool := sourceExtensions.any (·.isSuffixOf path)

/-- Walk one segment from a directory, given last segment first. -/
def walkSegment (directory : List Text) (segment : Text) : List Text :=
  if segment = ['.', '.'] then directory.tail
  else if segment = ['.'] ∨ segment = [] then directory
  else segment :: directory

/-- The segments that remain of a path when it is walked from the top. -/
def walk (segments : List Text) : List Text := (segments.foldl walkSegment []).reverse

/-- Append the default extension where none of the source extensions ends a path. -/
def withExtension (path : Text) : Text :=
  if hasSourceExtension path then path else path ++ defaultExtension

/-- The file that a specifier in a file stands for. -/
def resolve (importer specifier : Text) : Text :=
  let directory := (Text.splitOn '/' importer).dropLast
  withExtension (Text.join ['/'] (walk (directory ++ Text.splitOn '/' specifier)))

/-- Whether a specifier is relative. -/
def isRelative (specifier : Text) : Bool := specifier.head? == some '.'

end DebtSurvey.Imports
