import DebtSurvey.Text.Newline
import DebtSurvey.Text.Utf8
import DebtSurvey.Workspace.Glob
import DebtSurvey.Workspace.Tree

/-!
# Finding the files of a workspace

The files below a directory are listed in a fixed order: first the files of the directory itself by
name, then those of its subdirectories, by name as well. Directories named `.git` are left out, and
so is every file that the ignore file or the exclude patterns drop.
-/

namespace DebtSurvey.Workspace

/-- The directory that holds version control data. -/
def gitName : Text := ".git"

/-- The file of ignore patterns. -/
def ignoreName : Text := ".gitignore"

/-- Put named things in order. -/
def byName {α : Type} (entries : List (Text × α)) : List (Text × α) :=
  entries.mergeSort fun a b => Text.le a.1 b.1

mutual

/-- The paths of the files below a node, as segments. -/
def pathsBelow : Node → List (List Text)
  | .file _ => []
  | .dir entries =>
    (byName (fileNames entries)).map (fun (name, ()) => [name]) ++
      (byName (branches entries)).flatMap fun (name, paths) => paths.map (name :: ·)

/-- The names of the files among some entries. -/
def fileNames : List (Text × Node) → List (Text × Unit)
  | [] => []
  | (name, node) :: rest =>
    match node with
    | .file _ => (name, ()) :: fileNames rest
    | .dir _ => fileNames rest

/-- The subdirectories among some entries that are looked into, with the paths below them. -/
def branches : List (Text × Node) → List (Text × List (List Text))
  | [] => []
  | (name, node) :: rest =>
    if name = gitName then branches rest else (name, pathsBelow node) :: branches rest

end

/-- The files of a directory, as paths relative to it. -/
def filesBelow (root : Node) (directory : Text) : List Text :=
  match root.at? directory with
  | .ok node => (pathsBelow node).map (Text.join ['/'])
  | .error _ => []

/-- Why the files of a workspace cannot be found. -/
inductive DiscoveryError where
  /-- The ignore file cannot be opened. -/
  | path (cause : PathError)
  /-- The ignore file is not UTF-8. -/
  | encoding
  /-- A line is no pattern. -/
  | pattern (cause : Glob.PatternError)
deriving DecidableEq, Repr

/-- The lines of a text, each with the newline that ends it. -/
def keptLines (t : Text) : List Text :=
  match (Text.lines t).reverse with
  | [] => []
  | last :: before =>
    before.reverse.map (· ++ ['\n']) ++ if last.isEmpty then [] else [last]

section Kept

variable [Glob.Dialect]

/-- The patterns of the ignore file of a directory, if it has one. -/
def ignorePatterns (root : Node) (directory : Text) :
    Except DiscoveryError (List Glob.Dialect.Compiled) :=
  let path := Path.append directory ignoreName
  if root.hasPath path then
    match root.read path with
    | .error e => .error (.path e)
    | .ok bytes =>
      match Text.Utf8.decode? bytes with
      | none => .error .encoding
      | some t => (Glob.parseLines (keptLines (Text.unifyNewlines t))).mapError .pattern
  else .ok []

/-- The files of a workspace that neither list of patterns drops. -/
def keptFiles (root : Node) (directory : Text) (ignored excluded : List Glob.Dialect.Compiled) :
    List Text :=
  (filesBelow root directory).filter fun path =>
    !(Glob.Dialect.drops ignored path || Glob.Dialect.drops excluded path)

/-- The files of a workspace that are not ignored and not excluded. -/
def files (root : Node) (directory : Text) (excludes : List Text) :
    Except DiscoveryError (List Text) := do
  let ignored ← ignorePatterns root directory
  let excluded ← (Glob.parseLines excludes).mapError .pattern
  return keptFiles root directory ignored excluded

end Kept

/-- Whether there are version control data in a directory; `hasPath` says what exists. -/
def holdsGit (hasPath : Text → Bool) (directory : Text) : Bool :=
  hasPath (Path.append directory gitName)

/-- Climb from a directory, given by its names, to the nearest one that holds version control data;
the top of the file system is not asked. -/
def climb? (hasPath : Text → Bool) (start : Text) : List Text → Option Text
  | [] => none
  | name :: above =>
    let here := Path.ofNames start (name :: above).reverse
    if holdsGit hasPath here then some here else climb? hasPath start above

/-- The root of the repository around a path; the path itself where there is none. -/
def repositoryRoot (hasPath : Text → Bool) (path : Text) : Text :=
  (climb? hasPath (Path.lead path) (Path.names path).reverse).getD (Path.normalise path)

end DebtSurvey.Workspace
