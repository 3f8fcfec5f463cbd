import DebtSurvey.Settings.Basic
import DebtSurvey.Workspace.Discovery
import DebtSurvey.World

/-!
# The files of a scan

A scan looks at the files of a workspace that have one of the scanned extensions, up to a limit. A
negative limit leaves out that many files at the end.
-/

namespace DebtSurvey.Scan

/-- The extensions of files that are looked at. -/
def extensions : List Text := [".ts", ".tsx", ".js", ".jsx", ".py", ".java", ".go", ".rs"]

/-- Whether a file has one of the scanned extensions. -/
def isScanned (path : Text) : Bool := extensions.any (·.isSuffixOf path)

/-- How many of `total` files a limit keeps; a negative limit counts from the end. -/
def keptCount (limit : Int) (total : Nat) : Nat :=
  if 0 ≤ limit then min limit.toNat total else total - limit.natAbs

/-- Keep the first files up to a limit; that some are left out is noted. -/
def limitFiles (limit : Int) (files : List Text) : List Text × Option Event :=
  if limit < files.length then
    (files.take (keptCount limit files.length), some (.limited limit files.length))
  else (files, none)

/-- The files that a scan of a directory looks at, and what there is to note. -/
def sourceFiles [Glob.Dialect] (root : Node) (directory : Text) (settings : Settings) :
    Except Workspace.DiscoveryError (List Text × Option Event) := do
  let files ← Workspace.files root directory settings.excludes
  return limitFiles settings.fileLimit (files.filter isScanned)

end DebtSurvey.Scan
