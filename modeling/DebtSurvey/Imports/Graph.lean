import DebtSurvey.Imports.Specifier
import DebtSurvey.Imports.Statement
import DebtSurvey.Workspace.Source
import DebtSurvey.World

/-!
# Fan-in

The fan-in of a file is the number of files that import it by a relative specifier. A file that
imports another several times counts once.
-/

namespace DebtSurvey

/-- How many files import each target. -/
abbrev FanIn := List (Text × Int)

namespace FanIn

/-- The fan-in of a target. -/
def count (fanIn : FanIn) (target : Text) : Int :=
  ((fanIn.find? (·.1 = target)).map (·.2)).getD 0

/-- Count one more file that imports a target. -/
def bump : FanIn → Text → FanIn
  | [], target => [(target, 1)]
  | (t, n) :: rest, target => if t = target then (t, n + 1) :: rest else (t, n) :: bump rest target

end FanIn

namespace Imports

/-- The files that a source text in a file imports by relative specifiers, each once, in order. -/
def localTargets (file source : Text) : List Text :=
  (((targets source).filter isRelative).map (resolve file)).eraseDups.mergeSort Text.le

/-- Count the imports of one file. -/
def addFile (root : Node) (directory : Text) (fanIn : FanIn) (file : Text) : FanIn × Option Event :=
  if hasSourceExtension file then
    match Source.read root (Path.append directory file) with
    | .error _ => (fanIn, some (.importsSkipped file))
    | .ok source => ((localTargets file source).foldl FanIn.bump fanIn, none)
  else (fanIn, none)

/-- The fan-in that some files give rise to, and what there is to note. -/
def graph (root : Node) (directory : Text) (files : List Text) : FanIn × List Event :=
  files.foldl
    (fun (fanIn, events) file =>
      let (fanIn, event) := addFile root directory fanIn file
      (fanIn, events ++ event.toList))
    ([], [])

end Imports

end DebtSurvey
